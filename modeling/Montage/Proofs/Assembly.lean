import Montage.Compile.Compilation
import Montage.Proofs.Resolution

/-!
# How a graph grows

Four routines add nodes to a graph: one adds the picture of a cut, one its sounds, one their mix,
and one joins a segment to what has been composed. Each is told here by the nodes that it pushes
and by what it gives back, so that later proofs need not open it; none of them changes what was
there (`Graph.Extends`). `Built` tells the whole of a build in the same way, and `built_of_run`
says that a build which gives a graph is of that form.
-/

namespace Montage

open Drafting

/-! ## Graphs with more nodes -/

/-- A graph that differs from another only by nodes at its end. -/
def Graph.Extends (graph grown : Graph) : Prop :=
  ∃ more, grown = { graph with nodes := graph.nodes ++ more }

namespace Graph.Extends

variable {graph grown further : Graph}

theorem refl (graph : Graph) : graph.Extends graph :=
  ⟨[], by simp⟩

theorem trans (first : graph.Extends grown) (second : grown.Extends further) :
    graph.Extends further := by
  obtain ⟨more, rfl⟩ := first
  obtain ⟨others, rfl⟩ := second
  exact ⟨more ++ others, by simp⟩

theorem push (extended : graph.Extends grown) (node : Node) : graph.Extends (grown.push node) :=
  extended.trans ⟨[node], rfl⟩

theorem single (graph : Graph) (node : Node) : graph.Extends (graph.push node) :=
  (refl graph).push node

/-- What holds of a graph and stays when a node is added holds of every graph with more nodes. -/
theorem induction {motive : Graph → Prop} (extended : graph.Extends grown) (start : motive graph)
    (step : ∀ between node, motive between → motive (between.push node)) : motive grown := by
  obtain ⟨more, rfl⟩ := extended
  -- The graph varies, since the rest of the nodes are added to one that has the first of them.
  induction more generalizing graph with
  | nil => simpa using start
  | cons node more ih =>
    have next := ih (step graph node start)
    rwa [Graph.push, List.append_assoc] at next

theorem inputs_eq (extended : graph.Extends grown) : grown.inputs = graph.inputs := by
  obtain ⟨_, rfl⟩ := extended
  rfl

theorem crossfade_eq (extended : graph.Extends grown) : grown.crossfade = graph.crossfade := by
  obtain ⟨_, rfl⟩ := extended
  rfl

theorem durations_eq (extended : graph.Extends grown) : grown.durations = graph.durations := by
  obtain ⟨_, rfl⟩ := extended
  rfl

theorem subset (extended : graph.Extends grown) : graph.nodes ⊆ grown.nodes := by
  obtain ⟨more, rfl⟩ := extended
  exact List.subset_append_left ..

end Graph.Extends

/-! ## The routines -/

variable {draft after : Draft}

namespace SegmentStyle

variable {style : SegmentStyle} {cut : CutInputs} {total : Int}

theorem videoNode_of_ok {node : Node} (given : style.videoNode cut total = .ok node) :
    ∃ ops, style.videoOps cut total = .ok ops ∧
      node = ⟨.segmentVideo, .video, cut.index, [.input cut.video .video], ops, 0⟩ := by
  obtain ⟨ops, opsGiven, given⟩ := except_bind_eq_ok_iff.mp given
  exact ⟨ops, opsGiven, (except_pure_eq_ok_iff.mp given).symm⟩

theorem audioNode_of_ok {track : Nat} {slot : Int} {node : Node}
    (given : style.audioNode cut total track slot = .ok node) :
    ∃ offset volume ops, cut.offsets[track]? = some offset ∧ cut.volumes[track]? = some volume ∧
      style.audioOps cut total offset volume = .ok ops ∧
      node = ⟨.segmentAudio, .audio, cut.index, [.input slot .audio], ops, track⟩ := by
  unfold audioNode at given
  split at given
  · next offset volume offsetAt volumeAt =>
    obtain ⟨ops, opsGiven, given⟩ := except_bind_eq_ok_iff.mp given
    exact ⟨offset, volume, ops, offsetAt, volumeAt, opsGiven,
      (except_pure_eq_ok_iff.mp given).symm⟩
  · cases given

theorem push_of_run_addVideo {position : Nat}
    (added : (style.addVideo cut total).run draft = .ok position after) :
    ∃ node, style.videoNode cut total = .ok node ∧ position = draft.graph.nodes.length ∧
      after.graph = draft.graph.push node := by
  obtain ⟨node, _, made, added⟩ := run_bind_eq_ok_iff.mp added
  obtain ⟨given, rfl⟩ := run_lift_eq_ok_iff.mp made
  obtain ⟨rfl, rfl⟩ := run_addNode_eq_ok_iff.mp added
  exact ⟨node, given, rfl, rfl⟩

/-- The first of some sounds is pushed, then the others are added to the graph that has it. -/
theorem push_of_run_addAudioFrom {track : Nat} {slot : Int} {slots : List Int}
    {positions : List Nat}
    (added : (style.addAudioFrom cut total track (slot :: slots)).run draft =
      .ok positions after) :
    ∃ node others middle, style.audioNode cut total track slot = .ok node ∧
      middle.graph = draft.graph.push node ∧
      (style.addAudioFrom cut total (track + 1) slots).run middle = .ok others after ∧
      positions = draft.graph.nodes.length :: others := by
  unfold addAudioFrom at added
  obtain ⟨node, _, made, added⟩ := run_bind_eq_ok_iff.mp added
  obtain ⟨given, rfl⟩ := run_lift_eq_ok_iff.mp made
  obtain ⟨_, middle, pushed, added⟩ := run_bind_eq_ok_iff.mp added
  obtain ⟨rfl, rfl⟩ := run_addNode_eq_ok_iff.mp pushed
  obtain ⟨others, _, more, added⟩ := run_bind_eq_ok_iff.mp added
  obtain ⟨rfl, rfl⟩ := run_pure_eq_ok_iff.mp added
  exact ⟨node, others, _, given, rfl, more, rfl⟩

theorem of_run_addAudioFrom_nil {track : Nat} {positions : List Nat}
    (added : (style.addAudioFrom cut total track []).run draft = .ok positions after) :
    positions = [] ∧ after = draft := by
  obtain ⟨rfl, rfl⟩ := run_pure_eq_ok_iff.mp added
  exact ⟨rfl, rfl⟩

theorem extends_of_run_addAudioFrom {track : Nat} {slots : List Int} {positions : List Nat}
    (added : (style.addAudioFrom cut total track slots).run draft = .ok positions after) :
    draft.graph.Extends after.graph := by
  induction slots generalizing track draft positions with
  | nil =>
    obtain ⟨_, rfl⟩ := of_run_addAudioFrom_nil added
    exact .refl _
  | cons slot slots ih =>
    obtain ⟨node, others, middle, _, pushed, more, _⟩ := push_of_run_addAudioFrom added
    exact (pushed ▸ Graph.Extends.single _ node).trans (ih more)

/-- The node of each sound is among those added. -/
theorem mem_of_run_addAudioFrom {track place : Nat} {slots : List Int} {positions : List Nat}
    {slot : Int} (added : (style.addAudioFrom cut total track slots).run draft =
      .ok positions after) (present : slots[place]? = some slot) :
    ∃ node ∈ after.graph.nodes, style.audioNode cut total (track + place) slot = .ok node := by
  induction slots generalizing track draft positions place with
  | nil => simp at present
  | cons head slots ih =>
    obtain ⟨node, others, middle, made, pushed, more, _⟩ := push_of_run_addAudioFrom added
    cases place with
    | zero =>
      obtain rfl : head = slot := by simpa using present
      have atEnd : node ∈ middle.graph.nodes := by simp [pushed]
      exact ⟨node, (extends_of_run_addAudioFrom more).subset atEnd, made⟩
    | succ place =>
      rw [Nat.add_comm place, ← Nat.add_assoc]
      exact ih more (by simpa using present)

end SegmentStyle

namespace Segment

variable {style : SegmentStyle} {cut : CutInputs} {total : Int}

theorem push_of_run_addMix {index : Int} {sounds : List Nat} {position : Nat}
    (added : (addMix index sounds).run draft = .ok position after) :
    sounds ≠ [] ∧ position = draft.graph.nodes.length ∧
      after.graph = draft.graph.push (mixNode index sounds) := by
  obtain ⟨present, added⟩ := run_refuse_eq_ok_iff.mp added
  obtain ⟨rfl, rfl⟩ := run_addNode_eq_ok_iff.mp added
  exact ⟨by simpa using present, rfl, rfl⟩

/-- The nodes of a cut are its picture, its sounds and their mix, in this order. -/
theorem parts_of_run_ofCut {segment : Segment}
    (added : (ofCut style total cut).run draft = .ok segment after) :
    ∃ sounds shown heard, (style.addVideo cut total).run draft = .ok segment.video shown ∧
      (style.addAudioFrom cut total 0 cut.audio).run shown = .ok sounds heard ∧
      (addMix cut.index sounds).run heard = .ok segment.audio after ∧
      segment.index = cut.index ∧ segment.duration = cut.duration := by
  obtain ⟨video, shown, picture, added⟩ := run_bind_eq_ok_iff.mp added
  obtain ⟨sounds, heard, tracks, added⟩ := run_bind_eq_ok_iff.mp added
  obtain ⟨audio, _, mixed, added⟩ := run_bind_eq_ok_iff.mp added
  obtain ⟨rfl, rfl⟩ := run_pure_eq_ok_iff.mp added
  exact ⟨sounds, shown, heard, picture, tracks, mixed, rfl, rfl⟩

/-- The node of the picture of a cut is among those added. -/
theorem picture_of_run_ofCut {segment : Segment}
    (added : (ofCut style total cut).run draft = .ok segment after) :
    ∃ node ∈ after.graph.nodes, style.videoNode cut total = .ok node := by
  obtain ⟨sounds, shown, heard, picture, tracks, mixed, _, _⟩ := parts_of_run_ofCut added
  obtain ⟨node, made, _, pictured⟩ := SegmentStyle.push_of_run_addVideo picture
  obtain ⟨_, _, mixedGraph⟩ := push_of_run_addMix mixed
  have shownIn : node ∈ shown.graph.nodes := by simp [pictured]
  have heardIn := (SegmentStyle.extends_of_run_addAudioFrom tracks).subset shownIn
  exact ⟨node, by rw [mixedGraph]; exact List.mem_append_left _ heardIn, made⟩

/-- The node of each sound of a cut is among those added. -/
theorem sound_of_run_ofCut {segment : Segment} {place : Nat} {slot : Int}
    (added : (ofCut style total cut).run draft = .ok segment after)
    (present : cut.audio[place]? = some slot) :
    ∃ node ∈ after.graph.nodes, style.audioNode cut total place slot = .ok node := by
  obtain ⟨sounds, shown, heard, _, tracks, mixed, _, _⟩ := parts_of_run_ofCut added
  obtain ⟨node, nodeIn, made⟩ := SegmentStyle.mem_of_run_addAudioFrom tracks present
  obtain ⟨_, _, mixedGraph⟩ := push_of_run_addMix mixed
  rw [Nat.zero_add] at made
  exact ⟨node, by rw [mixedGraph]; exact List.mem_append_left _ nodeIn, made⟩

theorem extends_of_run_ofCut {segment : Segment}
    (added : (ofCut style total cut).run draft = .ok segment after) :
    draft.graph.Extends after.graph := by
  obtain ⟨sounds, shown, heard, picture, tracks, mixed, _, _⟩ := parts_of_run_ofCut added
  obtain ⟨node, _, _, pictured⟩ := SegmentStyle.push_of_run_addVideo picture
  obtain ⟨_, _, mixedGraph⟩ := push_of_run_addMix mixed
  rw [mixedGraph]
  exact ((pictured ▸ Graph.Extends.single _ node).trans
    (SegmentStyle.extends_of_run_addAudioFrom tracks)).push _

end Segment

namespace Composite

variable {crossfade : Value} {transition : Transition} {state final : Composite}

/-- A join pushes the joined picture and the joined sound. -/
theorem push_of_run_join {segment : Segment}
    (joined : (join crossfade transition state segment).run draft = .ok final after) :
    ∃ offset videoOp audioOp elapsed,
      state.elapsed.lessMultiple crossfade segment.index = .ok offset ∧
      transition.videoOp crossfade offset = .ok videoOp ∧
      Transition.audioOp crossfade = .ok audioOp ∧
      state.elapsed.add segment.duration = .ok elapsed ∧
      after.graph =
        (draft.graph.push
          (joinNode .videoJoin .video segment.index state.video segment.video videoOp)).push
          (joinNode .audioJoin .audio segment.index state.audio segment.audio audioOp) ∧
      final = ⟨draft.graph.nodes.length, draft.graph.nodes.length + 1, elapsed⟩ := by
  obtain ⟨offset, _, offsetRun, joined⟩ := run_bind_eq_ok_iff.mp joined
  obtain ⟨offsetGiven, rfl⟩ := run_lift_defect_eq_ok_iff.mp offsetRun
  obtain ⟨videoOp, _, videoRun, joined⟩ := run_bind_eq_ok_iff.mp joined
  obtain ⟨videoGiven, rfl⟩ := run_lift_defect_eq_ok_iff.mp videoRun
  obtain ⟨_, _, videoAdded, joined⟩ := run_bind_eq_ok_iff.mp joined
  obtain ⟨rfl, rfl⟩ := run_addNode_eq_ok_iff.mp videoAdded
  obtain ⟨audioOp, _, audioRun, joined⟩ := run_bind_eq_ok_iff.mp joined
  obtain ⟨audioGiven, rfl⟩ := run_lift_defect_eq_ok_iff.mp audioRun
  obtain ⟨_, _, audioAdded, joined⟩ := run_bind_eq_ok_iff.mp joined
  obtain ⟨rfl, rfl⟩ := run_addNode_eq_ok_iff.mp audioAdded
  obtain ⟨_, _, reported, joined⟩ := run_bind_eq_ok_iff.mp joined
  obtain ⟨elapsed, _, elapsedRun, joined⟩ := run_bind_eq_ok_iff.mp joined
  obtain ⟨elapsedGiven, rfl⟩ := run_lift_defect_eq_ok_iff.mp elapsedRun
  obtain ⟨rfl, rfl⟩ := run_pure_eq_ok_iff.mp joined
  exact ⟨offset, videoOp, audioOp, elapsed, offsetGiven, videoGiven, audioGiven, elapsedGiven,
    graph_of_run_report reported, by simp⟩

theorem steps_of_run_joinAll {segment : Segment} {segments : List Segment}
    (joined : (joinAll crossfade transition state (segment :: segments)).run draft =
      .ok final after) :
    ∃ next middle, (join crossfade transition state segment).run draft = .ok next middle ∧
      (joinAll crossfade transition next segments).run middle = .ok final after :=
  run_bind_eq_ok_iff.mp joined

theorem of_run_joinAll_nil
    (joined : (joinAll crossfade transition state []).run draft = .ok final after) :
    final = state ∧ after = draft := by
  obtain ⟨rfl, rfl⟩ := run_pure_eq_ok_iff.mp joined
  exact ⟨rfl, rfl⟩

theorem extends_of_run_joinAll {segments : List Segment}
    (joined : (joinAll crossfade transition state segments).run draft = .ok final after) :
    draft.graph.Extends after.graph := by
  induction segments generalizing state draft with
  | nil =>
    obtain ⟨_, rfl⟩ := of_run_joinAll_nil joined
    exact .refl _
  | cons segment segments ih =>
    obtain ⟨next, middle, one, more⟩ := steps_of_run_joinAll joined
    obtain ⟨_, _, _, _, _, _, _, _, pushed, _⟩ := push_of_run_join one
    exact (pushed ▸ (Graph.Extends.single _ _).push _).trans (ih more)

/-- Composing starts from the first segment. -/
theorem steps_of_run_compose {segments : List Segment}
    (composed : (compose crossfade transition segments).run draft = .ok final after) :
    ∃ first rest, segments = first :: rest ∧
      (joinAll crossfade transition (ofSegment first) rest).run draft = .ok final after := by
  cases segments with
  | nil => exact absurd composed run_throw_ne_ok
  | cons first rest => exact ⟨first, rest, rfl, composed⟩

end Composite

namespace Compilation

variable {existence : ExistenceCheck} {transition : Transition} {project : Project}

theorem steps_of_run_addSegments {style : SegmentStyle} {total : Int} {cut : CutInputs}
    {cuts : List CutInputs} {segments : List Segment}
    (added : (addSegments style total (cut :: cuts)).run draft = .ok segments after) :
    ∃ segment others middle, (Segment.ofCut style total cut).run draft = .ok segment middle ∧
      (addSegments style total cuts).run middle = .ok others after ∧
      segments = segment :: others := by
  obtain ⟨segment, middle, one, added⟩ := run_bind_eq_ok_iff.mp added
  obtain ⟨others, _, more, added⟩ := run_bind_eq_ok_iff.mp added
  obtain ⟨rfl, rfl⟩ := run_pure_eq_ok_iff.mp added
  exact ⟨segment, others, middle, one, more, rfl⟩

theorem of_run_addSegments_nil {style : SegmentStyle} {total : Int} {segments : List Segment}
    (added : (addSegments style total []).run draft = .ok segments after) :
    segments = [] ∧ after = draft := by
  obtain ⟨rfl, rfl⟩ := run_pure_eq_ok_iff.mp added
  exact ⟨rfl, rfl⟩

theorem extends_of_run_addSegments {style : SegmentStyle} {total : Int} {cuts : List CutInputs}
    {segments : List Segment}
    (added : (addSegments style total cuts).run draft = .ok segments after) :
    draft.graph.Extends after.graph := by
  induction cuts generalizing draft segments with
  | nil =>
    obtain ⟨_, rfl⟩ := of_run_addSegments_nil added
    exact .refl _
  | cons cut cuts ih =>
    obtain ⟨_, _, _, one, more, _⟩ := steps_of_run_addSegments added
    exact (Segment.extends_of_run_ofCut one).trans (ih more)

/-- Every cut has a segment of its index. -/
theorem indices_of_run_addSegments {style : SegmentStyle} {total : Int} {cuts : List CutInputs}
    {segments : List Segment}
    (added : (addSegments style total cuts).run draft = .ok segments after) :
    segments.map (·.index) = cuts.map (·.index) := by
  induction cuts generalizing draft segments with
  | nil =>
    obtain ⟨rfl, rfl⟩ := of_run_addSegments_nil added
    rfl
  | cons cut cuts ih =>
    obtain ⟨segment, others, middle, one, more, rfl⟩ := steps_of_run_addSegments added
    obtain ⟨_, _, _, _, _, _, index, _⟩ := Segment.parts_of_run_ofCut one
    rw [List.map_cons, List.map_cons, index, ih more]

/-- The nodes of one cut are added between those of the cuts before it and after it. -/
theorem cut_of_run_addSegments {style : SegmentStyle} {total : Int} {cuts : List CutInputs}
    {segments : List Segment} {place : Nat} {cut : CutInputs}
    (added : (addSegments style total cuts).run draft = .ok segments after)
    (present : cuts[place]? = some cut) :
    ∃ segment first last, (Segment.ofCut style total cut).run first = .ok segment last ∧
      draft.graph.Extends first.graph ∧ last.graph.Extends after.graph := by
  induction cuts generalizing draft segments place with
  | nil => simp at present
  | cons head cuts ih =>
    obtain ⟨segment, _, middle, one, more, _⟩ := steps_of_run_addSegments added
    cases place with
    | zero =>
      obtain rfl : head = cut := by simpa using present
      exact ⟨segment, draft, middle, one, .refl _, extends_of_run_addSegments more⟩
    | succ place =>
      obtain ⟨later, first, last, ran, before, behind⟩ := ih more (by simpa using present)
      exact ⟨later, first, last, ran, (Segment.extends_of_run_ofCut one).trans before, behind⟩

/-! ## The whole build -/

/-- What a graph is built from: the windows and inputs of the cuts, their segments, and the
composite of these. -/
structure Assembly where
  windows : List Window
  cuts : List CutInputs
  segments : List Segment
  final : Composite
  /-- The draft that has the windows but no nodes yet, then that with all segments, then that
  with all joins. -/
  begun : Draft
  segmented : Draft
  joined : Draft

/-- A graph that is built from an assembly. -/
structure Built (transition : Transition) (project : Project) (graph : Graph)
    (assembly : Assembly) : Prop where
  fade : checkFade project.fade = .ok ()
  resolved : CutInputs.CutsResolved project.base 0 0 project.cuts assembly.windows assembly.cuts
  total : checkTotal (assembly.cuts.map (·.duration)) project.fade.crossfade = .ok graph.total
  begins : assembly.begun.graph = {
    inputs := assembly.windows
    durations := assembly.cuts.map (·.duration)
    crossfade := project.fade.crossfade }
  segments : (addSegments (SegmentStyle.ofProject project) assembly.cuts.length
    assembly.cuts).run assembly.begun = .ok assembly.segments assembly.segmented
  joins : (Composite.compose project.fade.crossfade transition assembly.segments).run
    assembly.segmented = .ok assembly.final assembly.joined
  graph : graph = { assembly.joined.graph with
    videoOut := some assembly.final.video
    audioOut := some assembly.final.audio
    total := graph.total }

namespace Built

variable {graph : Graph} {assembly : Assembly}

theorem begun_extends (built : Built transition project graph assembly) :
    assembly.begun.graph.Extends assembly.segmented.graph :=
  extends_of_run_addSegments built.segments

theorem segmented_extends (built : Built transition project graph assembly) :
    assembly.segmented.graph.Extends assembly.joined.graph := by
  obtain ⟨_, _, _, joins⟩ := Composite.steps_of_run_compose built.joins
  exact Composite.extends_of_run_joinAll joins

theorem segments_length (built : Built transition project graph assembly) :
    assembly.segments.length = assembly.cuts.length := by
  simpa using congrArg List.length (indices_of_run_addSegments built.segments)

theorem nodes_eq (built : Built transition project graph assembly) :
    graph.nodes = assembly.joined.graph.nodes := by
  rw [built.graph]

/-- A built graph has the nodes of the picture and of each sound of a cut. -/
theorem nodes_of_cut (built : Built transition project graph assembly) {index : Nat}
    {cut : CutInputs} (present : assembly.cuts[index]? = some cut) :
    let style := SegmentStyle.ofProject project
    (∃ node ∈ graph.nodes, style.videoNode cut assembly.cuts.length = .ok node) ∧
      ∀ (place : Nat) slot, cut.audio[place]? = some slot → ∃ node ∈ graph.nodes,
        style.audioNode cut assembly.cuts.length place slot = .ok node := by
  obtain ⟨segment, first, last, ran, _, behind⟩ := cut_of_run_addSegments built.segments present
  have inGraph : ∀ node ∈ last.graph.nodes, node ∈ graph.nodes := by
    intro node nodeIn
    rw [built.nodes_eq]
    exact (behind.trans built.segmented_extends).subset nodeIn
  constructor
  · obtain ⟨node, nodeIn, made⟩ := Segment.picture_of_run_ofCut ran
    exact ⟨node, inGraph node nodeIn, made⟩
  · intro place slot slotAt
    obtain ⟨node, nodeIn, made⟩ := Segment.sound_of_run_ofCut ran slotAt
    exact ⟨node, inGraph node nodeIn, made⟩

theorem inputs_eq (built : Built transition project graph assembly) :
    graph.inputs = assembly.windows := by
  have grown := (built.begun_extends.trans built.segmented_extends).inputs_eq
  rw [built.begins] at grown
  rw [built.graph]
  exact grown

theorem durations_eq (built : Built transition project graph assembly) :
    graph.durations = assembly.cuts.map (·.duration) := by
  have grown := (built.begun_extends.trans built.segmented_extends).durations_eq
  rw [built.begins] at grown
  rw [built.graph]
  exact grown

theorem crossfade_eq (built : Built transition project graph assembly) :
    graph.crossfade = project.fade.crossfade := by
  have grown := (built.begun_extends.trans built.segmented_extends).crossfade_eq
  rw [built.begins] at grown
  rw [built.graph]
  exact grown

end Built

/-- The steps of a build that succeeds, in their order. The drafts are those that the build had
announced itself on, resolved the cuts on and judged the crossfade on; the assembly holds those
that come after. -/
structure Steps (existence : ExistenceCheck) (transition : Transition) (project : Project)
    (graph : Graph) (draft announced resolved warned after : Draft) (assembly : Assembly) :
    Prop where
  fade : checkFade project.fade = .ok ()
  announcing : ∃ text, (Drafting.report .info "GraphBuilder" text).run draft = .ok () announced
  resolving : (CutInputs.resolve existence project).run announced =
    .ok (assembly.windows, assembly.cuts) resolved
  total : checkTotal (assembly.cuts.map (·.duration)) project.fade.crossfade = .ok graph.total
  warning : (warnOfLongCrossfade (assembly.cuts.map (·.duration)) project.fade.crossfade).run
    resolved = .ok () warned
  beginning : (beginGraph assembly.windows (assembly.cuts.map (·.duration))
    project.fade.crossfade).run warned = .ok () assembly.begun
  segmenting : (addSegments (SegmentStyle.ofProject project) assembly.cuts.length
    assembly.cuts).run assembly.begun = .ok assembly.segments assembly.segmented
  joining : (Composite.compose project.fade.crossfade transition assembly.segments).run
    assembly.segmented = .ok assembly.final assembly.joined
  /-- What follows the finished graph are two reports, the second of which writes it out. -/
  finishing : ∃ finished summarised summary text,
    (finishGraph assembly.final graph.total).run assembly.joined = .ok graph finished ∧
    (Drafting.report .info "GraphBuilder" summary).run finished = .ok () summarised ∧
    graph.text = .ok text ∧
    (Drafting.report .debug "GraphBuilder" ("Filtergraph construído: " ++ text)).run summarised =
      .ok () after

theorem steps_of_run_build {graph : Graph}
    (built : (build existence transition project).run draft = .ok graph after) :
    ∃ announced resolved warned assembly,
      Steps existence transition project graph draft announced resolved warned after assembly := by
  unfold build at built
  obtain ⟨_, built⟩ := run_refuse_eq_ok_iff.mp built
  obtain ⟨_, _, faded, built⟩ := run_bind_eq_ok_iff.mp built
  obtain ⟨fade, rfl⟩ := run_lift_eq_ok_iff.mp faded
  obtain ⟨_, announced, announcing, built⟩ := run_bind_eq_ok_iff.mp built
  obtain ⟨⟨windows, cuts⟩, resolved, resolving, built⟩ := run_bind_eq_ok_iff.mp built
  obtain ⟨total, _, totalRun, built⟩ := run_bind_eq_ok_iff.mp built
  obtain ⟨totalGiven, rfl⟩ := run_lift_eq_ok_iff.mp totalRun
  obtain ⟨_, warned, warning, built⟩ := run_bind_eq_ok_iff.mp built
  obtain ⟨_, begun, beginning, built⟩ := run_bind_eq_ok_iff.mp built
  obtain ⟨segments, segmented, segmenting, built⟩ := run_bind_eq_ok_iff.mp built
  obtain ⟨final, joined, joining, built⟩ := run_bind_eq_ok_iff.mp built
  obtain ⟨finished, _, finishing, built⟩ := run_bind_eq_ok_iff.mp built
  obtain ⟨⟨video, audio⟩, _, labelling, built⟩ := run_bind_eq_ok_iff.mp built
  obtain ⟨_, rfl⟩ := run_lift_defect_eq_ok_iff.mp labelling
  obtain ⟨_, _, summarising, built⟩ := run_bind_eq_ok_iff.mp built
  obtain ⟨text, _, writing, built⟩ := run_bind_eq_ok_iff.mp built
  obtain ⟨written, rfl⟩ := run_lift_defect_eq_ok_iff.mp writing
  obtain ⟨_, _, describing, built⟩ := run_bind_eq_ok_iff.mp built
  obtain ⟨rfl, rfl⟩ := run_pure_eq_ok_iff.mp built
  have total_eq : finished.total = total := by
    injection finishing with graph_eq _
    rw [← graph_eq]
  subst total_eq
  exact ⟨announced, resolved, warned, ⟨windows, cuts, segments, final, begun, segmented, joined⟩,
    fade, ⟨_, announcing⟩, resolving, totalGiven, warning, beginning, segmenting, joining,
    _, _, _, text, finishing, summarising, written, describing⟩

theorem Steps.built {graph : Graph} {announced resolved warned : Draft} {assembly : Assembly}
    (steps : Steps existence transition project graph draft announced resolved warned after
      assembly) : Built transition project graph assembly where
  fade := steps.fade
  resolved := (CutInputs.projectResolved_of_run steps.resolving).1
  total := steps.total
  begins := by
    have beginning := steps.beginning
    injection beginning with _ begun
    exact congrArg Draft.graph begun.symm
  segments := steps.segmenting
  joins := steps.joining
  graph := by
    obtain ⟨_, _, _, _, finishing, _⟩ := steps.finishing
    injection finishing with finished _
    exact finished.symm

theorem built_of_run {graph : Graph}
    (built : (build existence transition project).run draft = .ok graph after) :
    ∃ assembly, Built transition project graph assembly := by
  obtain ⟨_, _, _, assembly, steps⟩ := steps_of_run_build built
  exact ⟨assembly, steps.built⟩

/-- Whatever changes the project first, the graph is built from some project. -/
theorem built_of_compile {transform : Option ProjectTransform} {graph : Graph}
    (compiled : (compile existence transition transform project).run draft = .ok graph after) :
    ∃ compiledProject assembly, Built transition compiledProject graph assembly := by
  cases transform with
  | none => exact ⟨project, built_of_run compiled⟩
  | some change =>
    obtain ⟨changed, _, _, compiled⟩ := run_bind_eq_ok_iff.mp compiled
    obtain ⟨_, _, _, compiled⟩ := run_bind_eq_ok_iff.mp compiled
    exact ⟨changed, built_of_run compiled⟩

/-- A project of two cuts, with a track that is moved forward and one that is delayed. -/
def sampleProject : Project where
  cuts := [
    ⟨⟨.text "day", .int 1⟩, .int 2, .text "00:00:09", [⟨.text "wind", .int 1, .int (-1)⟩]⟩,
    ⟨⟨.text "night", .int 1⟩, .int 0, .int 5, [⟨.text "rain", .int 1, .int 2⟩]⟩]
  fade := ⟨.int 1, .int 2, .int 1⟩

end Compilation

end Montage
