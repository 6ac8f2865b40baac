import Montage.Proofs.Joins
import Montage.Proofs.WellFormed

/-!
# The topology of a graph

The topology of a graph is what is left of it without the operations of its nodes and the files of
its windows. A build lays it out by counting: every cut has one window and one sound more than it
has tracks, and its nodes stand together, the joins behind those of all cuts. Main statements:
`Built.topology_eq`, that the topology of a built graph is the one laid out for the counts of
tracks, and `sameTopology_of_run_build`, that nothing else of a project has a say in it.
-/

namespace Montage

open Drafting

/-- What a node is apart from its operations. -/
structure NodeShape where
  role : NodeRole
  kind : StreamKind
  index : Int
  track : Int
  sources : List Source
deriving DecidableEq

def Node.shape (node : Node) : NodeShape :=
  ⟨node.role, node.kind, node.index, node.track, node.sources⟩

/-- What a slot is for: the kind of its window, and the cut and the track that it belongs to. -/
def Window.use (window : Window) : StreamKind × Int × Int :=
  (window.kind, window.index, window.track)

structure Topology where
  shapes : List NodeShape
  uses : List (StreamKind × Int × Int)
  videoOut : Option Int
  audioOut : Option Int
deriving DecidableEq

namespace Graph

def shapes (graph : Graph) : List NodeShape :=
  graph.nodes.map Node.shape

def topology (graph : Graph) : Topology :=
  ⟨graph.shapes, graph.inputs.map Window.use, graph.videoOut, graph.audioOut⟩

theorem shapes_push (graph : Graph) (node : Node) :
    (graph.push node).shapes = graph.shapes ++ [node.shape] := by
  simp [shapes]

theorem length_shapes (graph : Graph) : graph.shapes.length = graph.nodes.length :=
  List.length_map _

/-- Graphs that differ at most in the operations of their nodes and the files of their windows. -/
structure SameTopology (graph other : Graph) : Prop where
  labels : graph.labels = other.labels
  kinds : graph.nodes.map (·.kind) = other.nodes.map (·.kind)
  sources : graph.nodes.map (·.sources) = other.nodes.map (·.sources)
  videoOut : graph.videoOut = other.videoOut
  audioOut : graph.audioOut = other.audioOut
  uses : graph.inputs.map Window.use = other.inputs.map Window.use

theorem sameTopology_of_topology_eq {graph other : Graph}
    (same : graph.topology = other.topology) : graph.SameTopology other := by
  obtain ⟨shapes, uses, videoOut, audioOut⟩ := Topology.mk.inj same
  have byShape {α : Type} (read : NodeShape → α) :
      graph.nodes.map (read ∘ Node.shape) = other.nodes.map (read ∘ Node.shape) := by
    rw [← List.map_map, ← List.map_map]
    exact congrArg (List.map read) shapes
  constructor
  case labels => exact byShape fun shape => shape.role.label shape.index shape.track
  case kinds => exact byShape NodeShape.kind
  case sources => exact byShape NodeShape.sources
  case videoOut => exact videoOut
  case audioOut => exact audioOut
  case uses => exact uses

end Graph

/-! ## The layout by counts -/

/-- Where a cut stands: its index, its first slot, its first node and the count of its sounds. -/
structure CutPlace where
  index : Nat
  slot : Nat
  position : Nat
  sounds : Nat

namespace CutPlace

/-- The position of the picture. -/
def picture (place : CutPlace) : Nat := place.position

/-- The position of the mix, which stands behind the picture and the sounds. -/
def mix (place : CutPlace) : Nat := place.position + 1 + place.sounds

def soundShape (place : CutPlace) (track : Nat) : NodeShape :=
  ⟨.segmentAudio, .audio, place.index, track, [.input ((place.slot + track : Nat) : Int) .audio]⟩

def shapes (place : CutPlace) : List NodeShape :=
  ⟨.segmentVideo, .video, place.index, 0, [.input place.slot .video]⟩ ::
    ((List.range' 0 place.sounds).map place.soundShape ++
      [⟨.mix, .audio, place.index, 0,
        (List.range' (place.position + 1) place.sounds).map fun (position : Nat) =>
          .node position⟩])

/-- The first window is that of the video, the others are those of the tracks. -/
def uses (place : CutPlace) : List (StreamKind × Int × Int) :=
  (.video, (place.index : Int), 0) ::
    (List.range' 1 (place.sounds - 1)).map fun (track : Nat) => (.audio, place.index, track)

theorem length_shapes (place : CutPlace) : place.shapes.length = place.sounds + 2 := by
  simp [shapes]

end CutPlace

/-- The places of cuts with so many tracks, the first of which has the given index, slot and
position. -/
def placesFrom (index slot position : Nat) : (tracks : List Nat) → List CutPlace
  | [] => []
  | tracks :: rest =>
    ⟨index, slot, position, tracks + 1⟩ ::
      placesFrom (index + 1) (slot + (tracks + 1)) (position + (tracks + 3)) rest

/-- The joins of further cuts to a picture and a sound, numbered from `position` on. -/
def joinShapes (position picture sound : Nat) : List CutPlace → List NodeShape
  | [] => []
  | place :: rest =>
    ⟨.videoJoin, .video, place.index, 0, [.node picture, .node place.picture]⟩ ::
      ⟨.audioJoin, .audio, place.index, 0, [.node sound, .node place.mix]⟩ ::
      joinShapes (position + 2) position (position + 1) rest

/-- The picture and the sound that are left after the joins. -/
def outputsFrom (position picture sound : Nat) : List CutPlace → Nat × Nat
  | [] => (picture, sound)
  | _ :: rest => outputsFrom (position + 2) position (position + 1) rest

/-- The topology of a graph of cuts with so many tracks. -/
def Topology.ofTracks (tracks : List Nat) : Topology :=
  match placesFrom 0 0 0 tracks with
  | [] => ⟨[], [], none, none⟩
  | first :: rest =>
    let own := (first :: rest).flatMap CutPlace.shapes
    let outputs := outputsFrom own.length first.picture first.mix rest
    ⟨own ++ joinShapes own.length first.picture first.mix rest,
      (first :: rest).flatMap CutPlace.uses, some outputs.1, some outputs.2⟩

/-- The inputs of a cut that stands at a place. -/
structure CutInputs.StandsAt (cut : CutInputs) (place : CutPlace) : Prop where
  index : cut.index = place.index
  video : cut.video = place.slot
  audio : cut.audio = (List.range' 0 place.sounds).map fun (track : Nat) =>
    ((place.slot + track : Nat) : Int)

/-- The segment of a cut that stands at a place. -/
structure Segment.StandsAt (segment : Segment) (place : CutPlace) : Prop where
  index : segment.index = place.index
  video : segment.video = place.picture
  audio : segment.audio = place.mix

/-! ## Windows -/

namespace CutInputs

variable {base : Path} {index slot : Nat}

theorem TracksResolved.uses_eq {number : Nat} {start duration : Int}
    {tracks : List AudioTrack} {entries : List (Window × Int × Value)}
    (resolved : TracksResolved base index start duration number tracks entries) :
    (entries.map (·.1)).map Window.use =
      (List.range' number tracks.length).map fun (track : Nat) =>
        (.audio, (index : Int), (track : Int)) := by
  induction resolved with
  | nil => rfl
  | cons first _ ih =>
    rw [List.map_cons, List.map_cons, ih, first.window]
    rfl

theorem CutResolved.uses_eq {cut : Cut} {start duration : Int} {windows : List Window}
    {inputs : CutInputs} (resolved : CutResolved base index slot cut start duration windows inputs)
    (position : Nat) :
    windows.map Window.use =
      CutPlace.uses ⟨index, slot, position, cut.audio.length + 1⟩ := by
  obtain ⟨_, entries, _, tracks, rfl, _⟩ := resolved.rest
  rw [List.map_cons, tracks.uses_eq]
  rfl

theorem CutResolved.length_windows {cut : Cut} {start duration : Int} {windows : List Window}
    {inputs : CutInputs}
    (resolved : CutResolved base index slot cut start duration windows inputs) :
    windows.length = cut.audio.length + 1 := by
  obtain ⟨_, entries, _, tracks, rfl, _⟩ := resolved.rest
  rw [List.length_cons, List.length_map, tracks.length_eq]

theorem CutResolved.standsAt {cut : Cut} {start duration : Int} {windows : List Window}
    {inputs : CutInputs} (resolved : CutResolved base index slot cut start duration windows inputs)
    (position : Nat) : inputs.StandsAt ⟨index, slot, position, cut.audio.length + 1⟩ := by
  obtain ⟨_, entries, _, tracks, _, rfl⟩ := resolved.rest
  rw [← tracks.length_eq]
  exact ⟨rfl, rfl, by rw [List.range_eq_range']⟩

theorem CutsResolved.uses_eq {cuts : List Cut} {windows : List Window} {inputs : List CutInputs}
    (resolved : CutsResolved base index slot cuts windows inputs) (position : Nat) :
    windows.map Window.use =
      (placesFrom index slot position (cuts.map (·.audio.length))).flatMap CutPlace.uses := by
  induction resolved generalizing position with
  | nil => rfl
  | @cons _ _ cut _ _ _ _ _ _ _ first _ ih =>
    rw [List.map_append, first.uses_eq position, ih (position + (cut.audio.length + 3)),
      first.length_windows]
    rfl

theorem CutsResolved.standAt {cuts : List Cut} {windows : List Window} {inputs : List CutInputs}
    (resolved : CutsResolved base index slot cuts windows inputs) (position : Nat) :
    List.Forall₂ StandsAt inputs (placesFrom index slot position (cuts.map (·.audio.length))) := by
  induction resolved generalizing position with
  | nil => exact .nil
  | @cons _ _ cut _ _ _ _ _ _ _ first _ ih =>
    have others := ih (position + (cut.audio.length + 3))
    rw [first.length_windows] at others
    exact .cons (first.standsAt position) others

end CutInputs

/-! ## The nodes of the cuts -/

variable {draft after : Draft} {style : SegmentStyle} {total : Int} {cut : CutInputs}
  {place : CutPlace}

theorem SegmentStyle.shapes_of_run_addVideo {position : Nat} (stands : cut.StandsAt place)
    (added : (style.addVideo cut total).run draft = .ok position after) :
    after.graph.shapes = draft.graph.shapes ++
      [⟨.segmentVideo, .video, place.index, 0, [.input place.slot .video]⟩] := by
  obtain ⟨node, made, _, pushed⟩ := push_of_run_addVideo added
  obtain ⟨ops, _, rfl⟩ := videoNode_of_ok made
  rw [pushed, Graph.shapes_push, ← stands.index, ← stands.video]
  rfl

/-- The sounds from some track on stand behind each other. -/
theorem SegmentStyle.shapes_of_run_addAudioFrom {track count : Nat} {positions : List Nat}
    (stands : cut.StandsAt place)
    (added : (style.addAudioFrom cut total track ((List.range' track count).map
      fun (track : Nat) => ((place.slot + track : Nat) : Int))).run draft = .ok positions after) :
    after.graph.shapes = draft.graph.shapes ++
      (List.range' track count).map place.soundShape ∧
      positions = List.range' draft.graph.nodes.length count := by
  induction count generalizing track draft positions with
  | zero =>
    obtain ⟨rfl, rfl⟩ := of_run_addAudioFrom_nil added
    exact ⟨by simp, rfl⟩
  | succ count ih =>
    rw [List.range'_succ, List.map_cons] at added
    obtain ⟨node, others, middle, made, pushed, more, rfl⟩ := push_of_run_addAudioFrom added
    obtain ⟨_, _, ops, _, _, _, rfl⟩ := audioNode_of_ok made
    obtain ⟨shapes, rfl⟩ := ih more
    constructor
    · rw [shapes, pushed, Graph.shapes_push, List.range'_succ, List.map_cons, List.append_assoc,
        CutPlace.soundShape, ← stands.index]
      rfl
    · rw [List.range'_succ, pushed, Graph.nodes_push, List.length_append]
      rfl

/-- The nodes of a cut that stands at a place have the shapes laid out for it. -/
theorem Segment.shapes_of_run_ofCut {segment : Segment} (stands : cut.StandsAt place)
    (begins : draft.graph.nodes.length = place.position)
    (added : (ofCut style total cut).run draft = .ok segment after) :
    after.graph.shapes = draft.graph.shapes ++ place.shapes ∧ segment.StandsAt place := by
  obtain ⟨sounds, shown, heard, picture, tracks, mixed, index, _⟩ := parts_of_run_ofCut added
  have pictured := SegmentStyle.shapes_of_run_addVideo stands picture
  obtain ⟨_, _, videoAt, pushed⟩ := SegmentStyle.push_of_run_addVideo picture
  rw [stands.audio] at tracks
  obtain ⟨sounded, rfl⟩ := SegmentStyle.shapes_of_run_addAudioFrom stands tracks
  obtain ⟨_, audioAt, mixedGraph⟩ := push_of_run_addMix mixed
  have next : shown.graph.nodes.length = place.position + 1 := by
    rw [pushed, Graph.nodes_push, List.length_append, begins]
    rfl
  have last : heard.graph.nodes.length = place.mix := by
    rw [← Graph.length_shapes, sounded, List.length_append, Graph.length_shapes, next,
      List.length_map, List.length_range']
    rfl
  refine ⟨?_, index.trans stands.index, videoAt.trans begins, audioAt.trans last⟩
  rw [mixedGraph, Graph.shapes_push, sounded, pictured, next, stands.index, List.append_assoc,
    List.append_assoc]
  rfl

theorem Compilation.shapes_of_run_addSegments {cuts : List CutInputs} {segments : List Segment}
    {index slot : Nat} {tracks : List Nat}
    (stand : List.Forall₂ CutInputs.StandsAt cuts
      (placesFrom index slot draft.graph.nodes.length tracks))
    (added : (addSegments style total cuts).run draft = .ok segments after) :
    after.graph.shapes = draft.graph.shapes ++
      (placesFrom index slot draft.graph.nodes.length tracks).flatMap CutPlace.shapes ∧
      List.Forall₂ Segment.StandsAt segments
        (placesFrom index slot draft.graph.nodes.length tracks) := by
  induction tracks generalizing cuts segments draft index slot with
  | nil =>
    cases stand
    obtain ⟨rfl, rfl⟩ := of_run_addSegments_nil added
    exact ⟨by simp [placesFrom], .nil⟩
  | cons count tracks ih =>
    cases stand with
    | cons first others =>
      obtain ⟨segment, more, middle, one, rest, rfl⟩ := steps_of_run_addSegments added
      obtain ⟨shapes, stands⟩ := Segment.shapes_of_run_ofCut first rfl one
      have next : middle.graph.nodes.length = draft.graph.nodes.length + (count + 3) := by
        rw [← Graph.length_shapes, shapes, List.length_append, Graph.length_shapes,
          CutPlace.length_shapes]
      rw [← next] at others
      obtain ⟨laterShapes, laterStand⟩ := ih others rest
      rw [next] at laterShapes laterStand
      refine ⟨?_, .cons stands laterStand⟩
      rw [laterShapes, shapes, List.append_assoc]
      rfl

/-! ## The joins -/

theorem Composite.Joined.shapes_eq {crossfade : Value} {transition : Transition} {position : Nat}
    {state final : Composite} {segments : List Segment} {nodes : List Node}
    {places : List CutPlace}
    (joined : Joined crossfade transition position state segments nodes final)
    (stand : List.Forall₂ Segment.StandsAt segments places) :
    nodes.map Node.shape = joinShapes position state.video state.audio places ∧
      (final.video, final.audio) = outputsFrom position state.video state.audio places := by
  induction joined generalizing places with
  | nil =>
    cases stand
    exact ⟨rfl, rfl⟩
  | cons _ _ _ _ _ ih =>
    cases stand with
    | cons first others =>
      obtain ⟨shapes, outputs⟩ := ih others
      refine ⟨?_, outputs⟩
      rw [List.map_cons, List.map_cons, shapes, joinShapes, ← first.index, ← first.video,
        ← first.audio]
      rfl

/-! ## The whole graph -/

namespace Compilation

/-- The topology of a built graph is the one that is laid out for its counts of tracks. -/
theorem Built.topology_eq {transition : Transition} {project : Project} {graph : Graph}
    {assembly : Assembly} (built : Built transition project graph assembly) :
    graph.topology = Topology.ofTracks (project.cuts.map (·.audio.length)) := by
  have empty : assembly.begun.graph.nodes = [] := by rw [built.begins]
  have stand := built.resolved.standAt assembly.begun.graph.nodes.length
  obtain ⟨own, segmentsStand⟩ := shapes_of_run_addSegments stand built.segments
  have uses := built.resolved.uses_eq 0
  rw [empty, List.length_nil] at own segmentsStand
  obtain ⟨first, rest, split, joins⟩ := Composite.steps_of_run_compose built.joins
  obtain ⟨nodes, grown, joined⟩ := Composite.joined_of_run_joinAll joins
  rw [split] at segmentsStand
  unfold Topology.ofTracks
  cases laid : placesFrom 0 0 0 (project.cuts.map (·.audio.length)) with
  | nil =>
    rw [laid] at segmentsStand
    cases segmentsStand
  | cons place places =>
    rw [laid] at own segmentsStand uses
    cases segmentsStand with
    | cons firstStands restStand =>
      have begun : assembly.begun.graph.shapes = [] := by rw [Graph.shapes, empty, List.map_nil]
      rw [begun, List.nil_append] at own
      obtain ⟨joinsAre, outputs⟩ := joined.shapes_eq restStand
      rw [← Graph.length_shapes, own, Composite.ofSegment, firstStands.video,
        firstStands.audio] at joinsAre outputs
      have shapes : graph.shapes = assembly.segmented.graph.shapes ++ nodes.map Node.shape := by
        rw [Graph.shapes, built.nodes_eq, grown, List.map_append, Graph.shapes]
      unfold Graph.topology
      rw [shapes, own, joinsAre, built.inputs_eq, uses]
      obtain ⟨video, audio⟩ := Prod.mk.inj outputs
      rw [built.graph]
      simp only [video, audio]

example : (Topology.ofTracks [0, 1]).shapes.map
      (fun shape => shape.role.label shape.index shape.track) =
    ["v0", "a0_0", "a0", "v1", "a1_0", "a1_1", "a1", "vxf1", "axf1"] := by
  decide +kernel

variable {existence otherExistence : ExistenceCheck} {transition otherTransition : Transition}
  {project otherProject : Project} {graph otherGraph : Graph}
  {otherDraft otherAfter : Draft}

/-- Two projects with as many tracks, cut by cut, are built to graphs of one topology, whatever
else they say. -/
theorem sameTopology_of_run_build
    (built : (build existence transition project).run draft = .ok graph after)
    (otherBuilt : (build otherExistence otherTransition otherProject).run otherDraft =
      .ok otherGraph otherAfter)
    (tracks : project.cuts.map (·.audio.length) = otherProject.cuts.map (·.audio.length)) :
    graph.SameTopology otherGraph := by
  obtain ⟨_, assembled⟩ := built_of_run built
  obtain ⟨_, otherAssembled⟩ := built_of_run otherBuilt
  refine Graph.sameTopology_of_topology_eq ?_
  rw [assembled.topology_eq, otherAssembled.topology_eq, tracks]

/-- The cuts of the sample project with other files, times, volumes and offsets, put end to end
and brought to one frame size. -/
def plainSampleProject : Project where
  cuts := [
    ⟨⟨.text "dawn", .int 2⟩, .int 0, .int 90, [⟨.text "birds", .int 3, .int 0⟩]⟩,
    ⟨⟨.text "noon", .int 0⟩, .int 7, .text "00:01:00", [⟨.text "bells", .int 1, .int (-4)⟩]⟩]
  frame := [.int 1280, .int 720]
  base := ⟨1, ["media"]⟩

theorem sameTopology_sampleProject : ∃ graph after otherGraph otherAfter,
    (build (fun _ _ => .ok true) .plain sampleProject).run {} = .ok graph after ∧
      (build (fun _ _ => .ok true) ⟨"zoomin"⟩ plainSampleProject).run {} =
        .ok otherGraph otherAfter ∧
      graph.SameTopology otherGraph := by
  have succeeds : Drafting.succeeds
      (build (fun _ _ => .ok true) .plain sampleProject) {} (fun _ => true) = true := by
    decide +kernel
  have otherSucceeds : Drafting.succeeds
      (build (fun _ _ => .ok true) ⟨"zoomin"⟩ plainSampleProject) {} (fun _ => true) = true := by
    decide +kernel
  obtain ⟨graph, after, built, _⟩ := exists_of_succeeds succeeds
  obtain ⟨otherGraph, otherAfter, otherBuilt, _⟩ := exists_of_succeeds otherSucceeds
  exact ⟨graph, after, otherGraph, otherAfter, built, otherBuilt,
    sameTopology_of_run_build built otherBuilt rfl⟩

end Compilation

end Montage
