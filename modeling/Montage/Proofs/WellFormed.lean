import Montage.Proofs.Wiring

/-!
# Compiled graphs are well formed

Each routine that adds nodes takes the streams it reads off the loose ones: a cut takes the pads
of its windows and leaves a picture and a sound, a join takes two of each and leaves one of each.
The keys of the nodes are known in their order, since those of a cut have the index of the cut.
Main statement: `wellFormed_of_run_compile`, that every compiled graph is one that the encoder
accepts.
-/

namespace Montage

open Drafting

/-- A graph that the encoder accepts. Nodes read only what stands before them and streams of their
own kind; labels are unique; every pad of a window is read once, and so is every node, except two
different ones that leave the graph and are read by none. -/
structure Graph.WellFormed (graph : Graph) : Prop where
  /-- Nodes read only nodes before them. -/
  backward : ∀ (position : Nat) node, graph.nodes[position]? = some node →
    ∀ index : Int, .node index ∈ node.sources → 0 ≤ index ∧ index < position
  /-- Nodes read only slots that are there. -/
  slots : ∀ node ∈ graph.nodes, ∀ (slot : Int) kind, .input slot kind ∈ node.sources →
    0 ≤ slot ∧ slot < graph.inputs.length
  labels : graph.labels.Nodup
  videoPads : ∀ (slot : Nat) window, graph.inputs[slot]? = some window → window.kind = .video →
    graph.reads.count (.input slot .video) = 1 ∧ graph.reads.count (.input slot .audio) = 1
  audioPads : ∀ (slot : Nat) window, graph.inputs[slot]? = some window → window.kind = .audio →
    graph.reads.count (.input slot .audio) = 1 ∧ graph.reads.count (.input slot .video) = 0
  windowKinds : ∀ window ∈ graph.inputs, window.kind = .video ∨ window.kind = .audio
  nodeKinds : ∀ node ∈ graph.nodes, node.kind = .video ∨ node.kind = .audio
  sourceKinds : ∀ node ∈ graph.nodes, ∀ source ∈ node.sources,
    graph.kindOf? source = some node.kind
  outputs : ∃ video audio : Nat, graph.videoOut = some (video : Int) ∧
    graph.audioOut = some (audio : Int) ∧ video ≠ audio ∧
    graph.kindOf? (.node video) = some .video ∧ graph.kindOf? (.node audio) = some .audio ∧
    graph.reads.count (.node video) = 0 ∧ graph.reads.count (.node audio) = 0 ∧
    ∀ position : Nat, position < graph.nodes.length → position ≠ video → position ≠ audio →
      graph.reads.count (.node position) = 1

/-! ## What is loose around a cut -/

variable {draft after : Draft} {rest : List (Source × StreamKind)}

/-- The pads that the nodes of a cut read. -/
def CutInputs.ends (cut : CutInputs) : List (Source × StreamKind) :=
  (.input cut.video .video, .video) :: cut.audio.map fun slot => (.input slot .audio, .audio)

def Segment.ends (segment : Segment) : List (Source × StreamKind) :=
  [(.node segment.video, .video), (.node segment.audio, .audio)]

def Composite.ends (state : Composite) : List (Source × StreamKind) :=
  [(.node state.video, .video), (.node state.audio, .audio)]

namespace SegmentStyle

variable {style : SegmentStyle} {cut : CutInputs} {total : Int}

theorem wired_of_run_addVideo {position : Nat}
    (added : (style.addVideo cut total).run draft = .ok position after)
    (wired : draft.graph.Wired ((.input cut.video .video, .video) :: rest)) :
    after.graph.Wired ((.node position, .video) :: rest) := by
  obtain ⟨node, made, rfl, pushed⟩ := push_of_run_addVideo added
  obtain ⟨ops, _, rfl⟩ := videoNode_of_ok made
  rw [pushed]
  exact wired.push _ (.inl rfl) (List.Perm.refl _)

theorem wired_of_run_addAudioFrom {track : Nat} {slots : List Int} {positions : List Nat}
    (added : (style.addAudioFrom cut total track slots).run draft = .ok positions after)
    (wired : draft.graph.Wired
      (slots.map (fun slot => (.input slot .audio, .audio)) ++ rest)) :
    after.graph.Wired
      (positions.map (fun (position : Nat) => (.node position, .audio)) ++ rest) := by
  induction slots generalizing track draft positions rest with
  | nil =>
    obtain ⟨rfl, rfl⟩ := of_run_addAudioFrom_nil added
    exact wired
  | cons slot slots ih =>
    obtain ⟨node, others, middle, made, pushed, more, rfl⟩ := push_of_run_addAudioFrom added
    obtain ⟨_, _, ops, _, _, _, rfl⟩ := audioNode_of_ok made
    have first := wired.push ⟨.segmentAudio, .audio, cut.index, [.input slot .audio], ops, track⟩
      (.inr rfl) (List.Perm.refl _)
    rw [← pushed] at first
    -- The new node waits behind the pads of the sounds that are still to come.
    exact (ih more (first.perm List.perm_middle.symm)).perm List.perm_middle

end SegmentStyle

namespace Segment

theorem wired_of_run_addMix {index : Int} {sounds : List Nat} {position : Nat}
    (added : (addMix index sounds).run draft = .ok position after)
    (wired : draft.graph.Wired
      (sounds.map (fun (position : Nat) => (.node position, .audio)) ++ rest)) :
    after.graph.Wired ((.node position, .audio) :: rest) := by
  obtain ⟨_, rfl, pushed⟩ := push_of_run_addMix added
  rw [pushed]
  refine wired.push (mixNode index sounds) (.inr rfl) ?_
  rw [mixNode, List.map_map]
  exact List.Perm.refl _

/-- A cut takes the pads of its windows and leaves its picture and its mixed sound. -/
theorem wired_of_run_ofCut {style : SegmentStyle} {total : Int} {cut : CutInputs}
    {segment : Segment} (added : (ofCut style total cut).run draft = .ok segment after)
    (wired : draft.graph.Wired (cut.ends ++ rest)) :
    after.graph.Wired (segment.ends ++ rest) := by
  obtain ⟨sounds, shown, heard, picture, tracks, mixed, _, _⟩ := parts_of_run_ofCut added
  have pictured := SegmentStyle.wired_of_run_addVideo picture wired
  have sounded := SegmentStyle.wired_of_run_addAudioFrom tracks
    (pictured.perm List.perm_middle.symm)
  exact (wired_of_run_addMix mixed sounded).perm (List.Perm.swap _ _ _)

end Segment

theorem Compilation.wired_of_run_addSegments {style : SegmentStyle} {total : Int}
    {cuts : List CutInputs} {segments : List Segment}
    (added : (addSegments style total cuts).run draft = .ok segments after)
    (wired : draft.graph.Wired (cuts.flatMap CutInputs.ends ++ rest)) :
    after.graph.Wired (segments.flatMap Segment.ends ++ rest) := by
  induction cuts generalizing draft segments rest with
  | nil =>
    obtain ⟨rfl, rfl⟩ := of_run_addSegments_nil added
    exact wired
  | cons cut cuts ih =>
    obtain ⟨segment, others, middle, one, more, rfl⟩ := steps_of_run_addSegments added
    rw [List.flatMap_cons, List.append_assoc] at wired ⊢
    have first := Segment.wired_of_run_ofCut one wired
    -- The first segment waits behind what the other cuts read.
    exact (ih more (first.perm (List.perm_append_comm_assoc _ _ _))).perm
      (List.perm_append_comm_assoc _ _ _)

namespace Composite

variable {crossfade : Value} {transition : Transition} {state final : Composite}

/-- A join takes two pictures and two sounds, and leaves one of each. -/
theorem wired_of_run_join {segment : Segment}
    (joined : (join crossfade transition state segment).run draft = .ok final after)
    (wired : draft.graph.Wired (state.ends ++ (segment.ends ++ rest))) :
    after.graph.Wired (final.ends ++ rest) := by
  obtain ⟨_, videoOp, audioOp, _, _, _, _, _, pushed, rfl⟩ := push_of_run_join joined
  rw [pushed]
  have pictures := wired.push
    (joinNode .videoJoin .video segment.index state.video segment.video videoOp) (.inl rfl)
    ((List.Perm.swap _ _ _).cons _)
  -- The joined picture waits behind the two sounds.
  have sounds := (pictures.perm (List.perm_append_comm_assoc [_] [_, _] rest)).push
    (joinNode .audioJoin .audio segment.index state.audio segment.audio audioOp) (.inr rfl)
    (List.Perm.refl _)
  have counted : (draft.graph.push (joinNode .videoJoin .video segment.index state.video
      segment.video videoOp)).nodes.length = draft.graph.nodes.length + 1 := by simp
  rw [counted] at sounds
  exact sounds.perm (List.Perm.swap _ _ _)

theorem wired_of_run_joinAll {segments : List Segment}
    (joined : (joinAll crossfade transition state segments).run draft = .ok final after)
    (wired : draft.graph.Wired (state.ends ++ segments.flatMap Segment.ends)) :
    after.graph.Wired final.ends := by
  induction segments generalizing draft state with
  | nil =>
    obtain ⟨rfl, rfl⟩ := of_run_joinAll_nil joined
    exact wired
  | cons segment segments ih =>
    obtain ⟨next, middle, one, more⟩ := steps_of_run_joinAll joined
    exact ih more (wired_of_run_join one wired)

end Composite

/-! ## The pads of all windows -/

theorem padsFrom_append (slot : Nat) (windows others : List Window) :
    padsFrom slot (windows ++ others) =
      padsFrom slot windows ++ padsFrom (slot + windows.length) others := by
  induction windows generalizing slot with
  | nil => rfl
  | cons window windows ih =>
    simp only [List.cons_append, padsFrom, ih, List.append_assoc, List.length_cons]
    rw [Nat.add_assoc, Nat.add_comm 1]

namespace CutInputs

variable {base : Path}

theorem TracksResolved.padsFrom_eq {index number slot : Nat} {start duration : Int}
    {tracks : List AudioTrack} {entries : List (Window × Int × Value)}
    (resolved : TracksResolved base index start duration number tracks entries) :
    padsFrom slot (entries.map (·.1)) =
      (List.range entries.length).map fun position =>
        .input ((slot + position : Nat) : Int) .audio := by
  induction resolved generalizing slot with
  | nil => rfl
  | cons first _ ih =>
    rw [List.map_cons, padsFrom, ih, List.length_cons, List.range_succ_eq_map, first.window]
    simp [Window.pads, Nat.add_assoc, Nat.add_comm 1]

/-- The nodes of a cut read just the pads of its windows. -/
theorem CutResolved.padsFrom_eq {index slot : Nat} {cut : Cut} {start duration : Int}
    {windows : List Window} {inputs : CutInputs}
    (resolved : CutResolved base index slot cut start duration windows inputs) :
    padsFrom slot windows = inputs.ends.map (·.1) := by
  obtain ⟨path, entries, _, tracks, rfl, rfl⟩ := resolved.rest
  rw [padsFrom, tracks.padsFrom_eq]
  simp [Window.pads, CutInputs.ends, List.range_succ_eq_map, Nat.add_assoc, Nat.add_comm 1]

theorem CutsResolved.padsFrom_eq {index slot : Nat} {cuts : List Cut} {windows : List Window}
    {inputs : List CutInputs} (resolved : CutsResolved base index slot cuts windows inputs) :
    padsFrom slot windows = (inputs.flatMap CutInputs.ends).map (·.1) := by
  induction resolved with
  | nil => rfl
  | cons first _ ih =>
    rw [padsFrom_append, first.padsFrom_eq, ih, List.flatMap_cons, List.map_append]

end CutInputs

/-! ## The keys of all nodes -/

/-- The keys of a cut's nodes. -/
def CutInputs.keys (cut : CutInputs) : List (NodeRole × Int × Int) :=
  (.segmentVideo, cut.index, 0) :: (.mix, cut.index, 0) ::
    (List.range cut.audio.length).map fun (track : Nat) => (.segmentAudio, cut.index, (track : Int))

/-- The keys of the nodes that join a segment. -/
def Segment.joinKeys (segment : Segment) : List (NodeRole × Int × Int) :=
  [(.videoJoin, segment.index, 0), (.audioJoin, segment.index, 0)]

theorem SegmentStyle.keys_of_run_addAudioFrom {style : SegmentStyle} {cut : CutInputs}
    {total : Int} {track : Nat} {slots : List Int} {positions : List Nat}
    (added : (style.addAudioFrom cut total track slots).run draft = .ok positions after) :
    after.graph.keys = draft.graph.keys ++
      (List.range' track slots.length).map fun (place : Nat) =>
        (.segmentAudio, cut.index, (place : Int)) := by
  induction slots generalizing track draft positions with
  | nil =>
    obtain ⟨_, rfl⟩ := of_run_addAudioFrom_nil added
    simp
  | cons slot slots ih =>
    obtain ⟨node, others, middle, made, pushed, more, _⟩ := push_of_run_addAudioFrom added
    obtain ⟨_, _, ops, _, _, _, rfl⟩ := audioNode_of_ok made
    rw [ih more, pushed, Graph.keys_push, List.append_assoc]
    rfl

theorem Segment.keys_of_run_ofCut {style : SegmentStyle} {total : Int} {cut : CutInputs}
    {segment : Segment} (added : (ofCut style total cut).run draft = .ok segment after) :
    after.graph.keys.Perm (draft.graph.keys ++ cut.keys) := by
  obtain ⟨sounds, shown, heard, picture, tracks, mixed, _, _⟩ := parts_of_run_ofCut added
  obtain ⟨node, made, _, pictured⟩ := SegmentStyle.push_of_run_addVideo picture
  obtain ⟨ops, _, rfl⟩ := SegmentStyle.videoNode_of_ok made
  obtain ⟨_, _, mixedGraph⟩ := push_of_run_addMix mixed
  rw [mixedGraph, Graph.keys_push, SegmentStyle.keys_of_run_addAudioFrom tracks, pictured,
    Graph.keys_push, List.append_assoc, List.append_assoc]
  refine List.Perm.append_left _ (List.Perm.cons _ ?_)
  rw [← List.range_eq_range']
  exact List.perm_append_singleton _ _

theorem Compilation.keys_of_run_addSegments {style : SegmentStyle} {total : Int}
    {cuts : List CutInputs} {segments : List Segment}
    (added : (addSegments style total cuts).run draft = .ok segments after) :
    after.graph.keys.Perm (draft.graph.keys ++ cuts.flatMap CutInputs.keys) := by
  induction cuts generalizing draft segments with
  | nil =>
    obtain ⟨rfl, rfl⟩ := of_run_addSegments_nil added
    simp
  | cons cut cuts ih =>
    obtain ⟨segment, others, middle, one, more, rfl⟩ := steps_of_run_addSegments added
    rw [List.flatMap_cons, ← List.append_assoc]
    exact (ih more).trans ((Segment.keys_of_run_ofCut one).append_right _)

theorem Composite.keys_of_run_joinAll {crossfade : Value} {transition : Transition}
    {state final : Composite} {segments : List Segment}
    (joined : (joinAll crossfade transition state segments).run draft = .ok final after) :
    after.graph.keys = draft.graph.keys ++ segments.flatMap Segment.joinKeys := by
  induction segments generalizing draft state with
  | nil =>
    obtain ⟨_, rfl⟩ := of_run_joinAll_nil joined
    simp
  | cons segment segments ih =>
    obtain ⟨next, middle, one, more⟩ := steps_of_run_joinAll joined
    obtain ⟨_, _, _, _, _, _, _, _, pushed, _⟩ := push_of_run_join one
    rw [ih more, pushed, Graph.keys_push, Graph.keys_push, List.flatMap_cons, List.append_assoc,
      List.append_assoc]
    rfl

/-- The cuts have their places as indices. -/
theorem CutInputs.CutsResolved.indices_eq {base : Path} {index slot : Nat} {cuts : List Cut}
    {windows : List Window} {inputs : List CutInputs}
    (resolved : CutsResolved base index slot cuts windows inputs) :
    inputs.map (·.index) = (List.range' index inputs.length).map fun (place : Nat) =>
      (place : Int) := by
  induction resolved with
  | nil => rfl
  | cons first _ ih =>
    obtain ⟨_, _, _, _, _, rfl⟩ := first.rest
    rw [List.map_cons, ih, List.length_cons, List.range'_succ, List.map_cons]

/-- Keys that are grouped by index are different if those of each group are. -/
theorem nodup_flatMap_of_index {α : Type} {items : List α} {index : α → Int}
    {keys : α → List (NodeRole × Int × Int)} (indices : (items.map index).Nodup)
    (each : ∀ item ∈ items, (keys item).Nodup)
    (own : ∀ item, ∀ key ∈ keys item, key.2.1 = index item) : (items.flatMap keys).Nodup := by
  refine List.nodup_flatMap.mpr ⟨each, ?_⟩
  refine (List.pairwise_map.mp indices).imp fun differ key here there => ?_
  exact differ ((own _ key here).symm.trans (own _ key there))

theorem CutInputs.index_of_mem_keys (cut : CutInputs) :
    ∀ key ∈ cut.keys, key.2.1 = cut.index := by
  intro key present
  simp only [keys, List.mem_cons, List.mem_map] at present
  rcases present with rfl | rfl | ⟨_, _, rfl⟩ <;> rfl

theorem CutInputs.nodup_keys (cut : CutInputs) : cut.keys.Nodup := by
  have tracks : ((List.range cut.audio.length).map fun (track : Nat) =>
      (NodeRole.segmentAudio, cut.index, (track : Int))).Nodup := by
    refine List.Nodup.map (fun track other same => ?_) List.nodup_range
    have casts : (track : Int) = other := by simpa using same
    exact Int.ofNat.inj casts
  simp [keys, tracks]

namespace Compilation.Built

variable {transition : Transition} {project : Project} {graph : Graph} {assembly : Assembly}

/-- The segments have their places as indices. -/
theorem indices_eq (built : Built transition project graph assembly) :
    assembly.segments.map (·.index) =
      (List.range' 0 assembly.segments.length).map fun (place : Nat) => (place : Int) := by
  rw [indices_of_run_addSegments built.segments, built.resolved.indices_eq, built.segments_length]

/-- The segments that are joined to the first have the places behind it. -/
theorem rest_indices_eq {first : Segment} {rest : List Segment}
    (built : Built transition project graph assembly) (split : assembly.segments = first :: rest) :
    rest.map (·.index) = (List.range' 1 rest.length).map fun (place : Nat) => (place : Int) := by
  have indices := built.indices_eq
  rw [split, List.length_cons, List.range'_succ, List.map_cons, List.map_cons] at indices
  exact (List.cons.inj indices).2

/-- The index of a segment that is joined is its place behind the first. -/
theorem index_of_rest {first segment : Segment} {rest : List Segment} {place : Nat}
    (built : Built transition project graph assembly) (split : assembly.segments = first :: rest)
    (found : rest[place]? = some segment) : segment.index = ((place + 1 : Nat) : Int) := by
  have inRest : place < rest.length := (List.getElem?_eq_some_iff.mp found).1
  have indexAt := congrArg (·[place]?) (built.rest_indices_eq split)
  simp only [List.getElem?_map, found, Option.map_some, List.getElem?_range' inRest] at indexAt
  rw [Option.some.inj indexAt, Nat.one_mul, Nat.add_comm]

/-- The nodes of a built graph are those of the cuts and those of the joins. -/
theorem keys_perm {first : Segment} {rest : List Segment}
    (built : Built transition project graph assembly) (split : assembly.segments = first :: rest) :
    graph.keys.Perm (assembly.cuts.flatMap CutInputs.keys ++ rest.flatMap Segment.joinKeys) := by
  have segmented := keys_of_run_addSegments built.segments
  have joins := built.joins
  rw [split] at joins
  have all : graph.keys = assembly.segmented.graph.keys ++ rest.flatMap Segment.joinKeys := by
    rw [← Composite.keys_of_run_joinAll joins, built.graph]
    rfl
  have begun : assembly.begun.graph.keys = [] := by rw [built.begins]; rfl
  rw [begun, List.nil_append] at segmented
  rw [all]
  exact segmented.append_right _

/-- No two nodes of a built graph have the same key. -/
theorem nodup_keys (built : Built transition project graph assembly) : graph.keys.Nodup := by
  obtain ⟨first, rest, split, _⟩ := Composite.steps_of_run_compose built.joins
  have different : (assembly.segments.map (·.index)).Nodup := by
    rw [built.indices_eq]
    exact (List.nodup_range' ..).map fun _ _ same => Int.ofNat.inj same
  have later : (rest.map (·.index)).Nodup := by
    rw [split] at different
    exact different.of_cons
  rw [indices_of_run_addSegments built.segments] at different
  rw [(built.keys_perm split).nodup_iff]
  refine List.Nodup.append ?_ ?_ ?_
  · exact nodup_flatMap_of_index different (fun cut _ => cut.nodup_keys)
      CutInputs.index_of_mem_keys
  · refine nodup_flatMap_of_index later (fun segment _ => by simp [Segment.joinKeys]) ?_
    intro segment key present
    rcases List.mem_pair.mp present with rfl | rfl <;> rfl
  · -- The roles are different ones.
    intro key ofCut ofJoin
    obtain ⟨cut, _, ofCut⟩ := List.mem_flatMap.mp ofCut
    obtain ⟨segment, _, ofJoin⟩ := List.mem_flatMap.mp ofJoin
    rcases List.mem_pair.mp ofJoin with rfl | rfl <;> simp [CutInputs.keys] at ofCut

end Compilation.Built

/-! ## The finished graph -/

theorem CutInputs.CutsResolved.windowKinds {base : Path} {index slot : Nat} {cuts : List Cut}
    {windows : List Window} {inputs : List CutInputs}
    (resolved : CutsResolved base index slot cuts windows inputs) :
    ∀ window ∈ windows, window.kind = .video ∨ window.kind = .audio := by
  induction resolved with
  | nil => simp
  | cons first _ ih =>
    obtain ⟨_, entries, _, tracks, rfl, _⟩ := first.rest
    intro window present
    rcases List.mem_append.mp present with own | later
    · rcases List.mem_cons.mp own with rfl | track
      · exact .inl rfl
      · obtain ⟨entry, entryIn, rfl⟩ := List.mem_map.mp track
        exact .inr (tracks.kind entry entryIn)
    · exact ih window later

/-- In the end the picture and the sound of the composite are loose, and nothing else. -/
theorem Compilation.Built.wired {transition : Transition} {project : Project} {graph : Graph}
    {assembly : Assembly} (built : Built transition project graph assembly) :
    graph.Wired assembly.final.ends := by
  obtain ⟨first, rest, split, joins⟩ := Composite.steps_of_run_compose built.joins
  have begun : assembly.begun.graph.Wired (assembly.cuts.flatMap CutInputs.ends ++ []) := by
    rw [List.append_nil, built.begins]
    refine .of_no_nodes rfl built.resolved.padsFrom_eq.symm ?_
    intro stream present
    obtain ⟨cut, _, own⟩ := List.mem_flatMap.mp present
    rcases List.mem_cons.mp own with rfl | sound
    · rfl
    · obtain ⟨slot, _, rfl⟩ := List.mem_map.mp sound
      rfl
  have segmented := wired_of_run_addSegments built.segments begun
  rw [List.append_nil, split] at segmented
  have joined := Composite.wired_of_run_joinAll joins segmented
  rw [built.graph]
  exact ⟨joined.balance, joined.looseKinds, joined.backward, joined.nodeKinds, joined.sourceKinds⟩

namespace Graph

variable {graph : Graph} {final : Composite}

/-- Pads are not loose in the end, so each is read as often as it is given out. -/
theorem Wired.count_input (wired : graph.Wired final.ends) (slot : Int) (kind : StreamKind) :
    graph.reads.count (.input slot kind) = if .input slot kind ∈ graph.outlets then 1 else 0 := by
  have used : .input slot kind ∉ final.ends.map (·.1) := by simp [Composite.ends]
  rw [← wired.count_reads, List.count_eq_zero_of_not_mem used, Nat.add_zero]

/-- A node is read once unless it is one of the two that leave the graph. -/
theorem Wired.count_node (wired : graph.Wired final.ends) {position : Nat}
    (within : position < graph.nodes.length) :
    graph.reads.count (.node position) =
      if position = final.video ∨ position = final.audio then 0 else 1 := by
  have given : .node position ∈ graph.outlets :=
    node_mem_outlets_iff.mpr ⟨Int.natCast_nonneg position, Int.ofNat_lt.mpr within⟩
  have counted := wired.count_reads (.node position)
  rw [if_pos given] at counted
  split
  · next leaves =>
    have loose : .node position ∈ final.ends.map (·.1) := by
      rcases leaves with rfl | rfl <;> simp [Composite.ends]
    rw [List.count_eq_one_of_mem wired.nodup_loose loose] at counted
    exact Nat.succ.inj counted
  · next stays =>
    have used : .node position ∉ final.ends.map (·.1) := by
      simpa [Composite.ends, Int.natCast_inj, not_or] using stays
    rwa [List.count_eq_zero_of_not_mem used] at counted

theorem Wired.wellFormed (wired : graph.Wired final.ends) (labels : graph.labels.Nodup)
    (windowKinds : ∀ window ∈ graph.inputs, window.kind = .video ∨ window.kind = .audio)
    (video : graph.videoOut = some (final.video : Int))
    (audio : graph.audioOut = some (final.audio : Int)) : graph.WellFormed := by
  have pad {slot : Nat} {window : Window} {kind : StreamKind}
      (found : graph.inputs[slot]? = some window) :
      .input slot kind ∈ graph.outlets ↔ .input slot kind ∈ window.pads slot := by
    rw [input_mem_outlets_iff]
    constructor
    · rintro ⟨place, other, same, otherAt, given⟩
      obtain rfl := Int.ofNat.inj same
      rw [found] at otherAt
      cases otherAt
      exact given
    · exact fun given => ⟨slot, window, rfl, found, given⟩
  have looseVideo : (Source.node final.video, StreamKind.video) ∈ final.ends := by
    simp [Composite.ends]
  have looseAudio : (Source.node final.audio, StreamKind.audio) ∈ final.ends := by
    simp [Composite.ends]
  have videoIn := (node_mem_outlets_iff.mp (wired.mem_outlets_of_loose looseVideo)).2
  have audioIn := (node_mem_outlets_iff.mp (wired.mem_outlets_of_loose looseAudio)).2
  constructor
  case backward => exact wired.backward
  case slots =>
    intro node nodeIn slot kind present
    have given := wired.mem_outlets_of_read (List.mem_flatMap.mpr ⟨node, nodeIn, present⟩)
    obtain ⟨position, window, rfl, found, _⟩ := input_mem_outlets_iff.mp given
    exact ⟨Int.natCast_nonneg position,
      Int.ofNat_lt.mpr (List.getElem?_eq_some_iff.mp found).1⟩
  case labels => exact labels
  case videoPads =>
    intro slot window found isVideo
    simp [wired.count_input, pad found, Window.pads, isVideo]
  case audioPads =>
    intro slot window found isAudio
    simp [wired.count_input, pad found, Window.pads, isAudio]
  case windowKinds => exact windowKinds
  case nodeKinds => exact wired.nodeKinds
  case sourceKinds => exact wired.sourceKinds
  case outputs =>
    refine ⟨final.video, final.audio, video, audio, ?_, wired.looseKinds _ looseVideo,
      wired.looseKinds _ looseAudio, ?_, ?_, ?_⟩
    · have differ := wired.nodup_loose
      simpa [Composite.ends, Int.natCast_inj] using differ
    · rw [wired.count_node (Int.ofNat_lt.mp videoIn), if_pos (.inl rfl)]
    · rw [wired.count_node (Int.ofNat_lt.mp audioIn), if_pos (.inr rfl)]
    · intro position within notVideo notAudio
      rw [wired.count_node within, if_neg (not_or.mpr ⟨notVideo, notAudio⟩)]

/-- What leaves the graph, where both outputs are nodes. -/
theorem terminalLabels_of_nodes {video audio : Nat} {picture sound : Node}
    (videoOut : graph.videoOut = some (video : Int))
    (audioOut : graph.audioOut = some (audio : Int))
    (pictureAt : graph.nodes[video]? = some picture) (soundAt : graph.nodes[audio]? = some sound) :
    graph.terminalLabels = .ok (picture.label, sound.label) := by
  simp [terminalLabels, videoOut, audioOut, outputLabel, labelOf, node, pictureAt, soundAt, bind,
    Except.bind, pure, Except.pure]

theorem node_of_kindOf? {position : Nat} {kind : StreamKind}
    (known : graph.kindOf? (.node position) = some kind) :
    ∃ node, graph.nodes[position]? = some node ∧ node.kind = kind := by
  rw [kindOf?, Value.itemAt?_natCast] at known
  exact Option.map_eq_some_iff.mp known

end Graph

/-- What is mapped are the picture and the sound that leave the graph. -/
theorem Compilation.Built.leaving {transition : Transition} {project : Project} {graph : Graph}
    {assembly : Assembly} (built : Built transition project graph assembly) :
    ∃ (video audio : Nat) (picture sound : Node), graph.nodes[video]? = some picture ∧
      graph.nodes[audio]? = some sound ∧ picture.kind = .video ∧ sound.kind = .audio ∧
      graph.terminalLabels = .ok (picture.label, sound.label) ∧
      ∀ position < graph.nodes.length,
        graph.reads.count (.node position) = 0 ↔ position = video ∨ position = audio := by
  have wired := built.wired
  obtain ⟨picture, pictureAt, isVideo⟩ := Graph.node_of_kindOf?
    (wired.looseKinds (.node assembly.final.video, .video) (by simp [Composite.ends]))
  obtain ⟨sound, soundAt, isAudio⟩ := Graph.node_of_kindOf?
    (wired.looseKinds (.node assembly.final.audio, .audio) (by simp [Composite.ends]))
  refine ⟨assembly.final.video, assembly.final.audio, picture, sound, pictureAt, soundAt, isVideo,
    isAudio, ?_, ?_⟩
  · refine Graph.terminalLabels_of_nodes ?_ ?_ pictureAt soundAt
    · rw [built.graph]
    · rw [built.graph]
  · intro position within
    rw [wired.count_node within]
    split
    · next leaves => exact iff_of_true rfl leaves
    · next stays => exact iff_of_false Nat.one_ne_zero stays

namespace Compilation

variable {existence : ExistenceCheck} {transition : Transition} {project : Project}
  {transform : Option ProjectTransform} {graph : Graph}

/-- Every compiled graph is well formed, whatever the files, the fades, the frame size and the
transition. -/
theorem wellFormed_of_run_compile
    (compiled : (compile existence transition transform project).run draft = .ok graph after) :
    graph.WellFormed := by
  obtain ⟨_, assembly, built⟩ := built_of_compile compiled
  refine built.wired.wellFormed (Graph.labels_nodup built.nodup_keys) ?_ ?_ ?_
  · rw [built.inputs_eq]
    exact built.resolved.windowKinds
  · rw [built.graph]
  · rw [built.graph]

theorem wellFormed_sampleProject : ∃ graph after,
    (compile (fun _ _ => .ok true) .plain none sampleProject).run {} = .ok graph after ∧
      graph.WellFormed := by
  have succeeds : Drafting.succeeds
      (compile (fun _ _ => .ok true) .plain none sampleProject) {} (fun _ => true) = true := by
    decide +kernel
  obtain ⟨graph, after, compiled, _⟩ := exists_of_succeeds succeeds
  exact ⟨graph, after, compiled, wellFormed_of_run_compile compiled⟩

end Compilation

end Montage
