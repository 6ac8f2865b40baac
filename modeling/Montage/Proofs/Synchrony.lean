import Mathlib.Data.List.Forall2
import Montage.Proofs.LengthChecks
import Montage.Proofs.StreamLength
import Montage.Proofs.WellFormed

/-!
# Picture and sound stay together

With a crossfade in whole seconds, the streams of a compiled graph have known lengths. All nodes of
a cut are as long as the cut. What has been composed of some cuts is as long as they are together
less one crossfade for every join, in the picture and in the sound alike, so a join starts its cut
at the same second in both. Main statement: `synchronous_of_run_build`.
-/

namespace Montage

open Drafting

/-! ## The nodes of a cut -/

/-- A cut of a length whose windows are as long as its picture and its sounds need. -/
structure CutInputs.Lasts (windows : List Window) (durations : List Value) (cut : CutInputs)
    (length : Int) : Prop where
  duration : cut.duration = .int length
  place : ∃ index : Nat, cut.index = index ∧ durations[index]? = some (.int length)
  picture : (Value.itemAt? windows cut.video).map (·.duration) = some length
  sounds : ∀ (place : Nat) slot offset, cut.audio[place]? = some slot →
    cut.offsets[place]? = some offset →
    (Value.itemAt? windows slot).map (·.duration) = some (length - offset)

/-- A segment of a length, the picture and the mixed sound of which are as long. -/
structure Segment.Lasts (graph : Graph) (segment : Segment) (length : Int) : Prop where
  duration : segment.duration = .int length
  picture : graph.length? (.node segment.video) = some length
  sound : graph.length? (.node segment.audio) = some length

/-- Whether a node belongs to one cut alone. -/
def Node.ofSegment (node : Node) : Prop :=
  node.role = .segmentVideo ∨ node.role = .segmentAudio ∨ node.role = .mix

/-- The nodes of every cut are as long as the cut. -/
def Graph.SegmentsLast (graph : Graph) : Prop :=
  ∀ (position : Nat) node, graph.nodes[position]? = some node → node.ofSegment →
    ∃ (index : Nat) (length : Int), node.index = index ∧
      graph.durations[index]? = some (.int length) ∧
      graph.length? (.node position) = some length

theorem Graph.SegmentsLast.push {graph : Graph} {node : Node} (last : graph.SegmentsLast)
    (own : node.ofSegment → ∃ (index : Nat) (length : Int), node.index = index ∧
      graph.durations[index]? = some (.int length) ∧
      node.length? graph.length? = some length) : (graph.push node).SegmentsLast := by
  intro position found foundAt ofSegment
  rcases earlier_or_last_of_push foundAt with earlier | ⟨rfl, rfl⟩
  · obtain ⟨index, length, indexed, durationAt, known⟩ := last position found earlier ofSegment
    exact ⟨index, length, indexed, durationAt, (Extends.single graph node).length?_eq known⟩
  · obtain ⟨index, length, indexed, durationAt, known⟩ := own ofSegment
    exact ⟨index, length, indexed, durationAt, by rw [length?_push_self, known]⟩

section Nodes

variable {style : SegmentStyle} {cut : CutInputs} {total length : Int} {node : Node}
  {lengthOf : Source → Option Int}

theorem Node.length?_of_single {source : Source} (node : Node)
    (reads : node.sources = [source]) (known : lengthOf source = some length) :
    node.length? lengthOf = lengthThrough? node.ops [length] := by
  simp [Node.length?, reads, known]

theorem SegmentStyle.length?_videoNode (made : style.videoNode cut total = .ok node)
    (known : lengthOf (.input cut.video .video) = some length) :
    node.length? lengthOf = some length := by
  obtain ⟨ops, given, rfl⟩ := videoNode_of_ok made
  rw [Node.length?_of_single _ rfl known]
  exact lengthThrough?_of_steady (videoOps_steady given) length

theorem SegmentStyle.length?_audioNode {track : Nat} {slot : Int}
    (made : style.audioNode cut total track slot = .ok node)
    (known : ∀ offset, cut.offsets[track]? = some offset →
      lengthOf (.input slot .audio) = some (length - offset)) :
    node.length? lengthOf = some length := by
  obtain ⟨offset, _, ops, offsetAt, _, given, rfl⟩ := audioNode_of_ok made
  obtain ⟨more, rfl, steady⟩ := audioOps_split given
  have reset : (resetTimestamps "asetpts").length? [length - offset] = some (length - offset) :=
    Op.length?_of_steady rfl _
  rw [Node.length?_of_single _ rfl (known offset offsetAt), lengthThrough?, reset,
    Option.bind_some, lengthThrough?_append, lengthThrough?_offsetChain, Option.bind_some]
  exact lengthThrough?_of_steady steady length

theorem mapM_eq_replicate {sources : List Source}
    (known : ∀ source ∈ sources, lengthOf source = some length) :
    sources.mapM lengthOf = some (List.replicate sources.length length) := by
  induction sources with
  | nil => rfl
  | cons source sources ih =>
    obtain ⟨first, more⟩ := List.forall_mem_cons.mp known
    rw [List.mapM_cons, first, ih more]
    rfl

/-- A mix of sounds of one length has this length. -/
theorem Segment.length?_mixNode {index : Int} {sounds : List Nat} (present : sounds ≠ [])
    (known : ∀ position ∈ sounds, lengthOf (.node (position : Nat)) = some length) :
    (mixNode index sounds).length? lengthOf = some length := by
  have reads : ∀ source ∈ (mixNode index sounds).sources, lengthOf source = some length := by
    intro source sourceIn
    obtain ⟨position, positionIn, rfl⟩ := List.mem_map.mp sourceIn
    exact known position positionIn
  have count : (mixNode index sounds).sources.length = sounds.length := List.length_map ..
  rw [Node.length?, mapM_eq_replicate reads, count, Option.bind_some]
  show (List.replicate sounds.length length).max?.bind _ = _
  rw [List.max?_replicate, if_neg (mt List.eq_nil_of_length_eq_zero present)]
  rfl

end Nodes

section Cuts

variable {draft after : Draft} {style : SegmentStyle} {cut : CutInputs} {total length : Int}

/-- Sounds that are added have the length of the cut. -/
theorem SegmentStyle.last_of_run_addAudioFrom {track : Nat} {slots : List Int}
    {positions : List Nat}
    (added : (style.addAudioFrom cut total track slots).run draft = .ok positions after)
    (ready : cut.Lasts draft.graph.inputs draft.graph.durations length)
    (own : ∀ (place : Nat) slot, slots[place]? = some slot →
      cut.audio[track + place]? = some slot)
    (before : draft.graph.SegmentsLast) :
    (∀ position ∈ positions, after.graph.length? (.node (position : Nat)) = some length) ∧
      after.graph.SegmentsLast := by
  induction slots generalizing track draft positions with
  | nil =>
    obtain ⟨rfl, rfl⟩ := of_run_addAudioFrom_nil added
    exact ⟨by simp, before⟩
  | cons slot slots ih =>
    obtain ⟨node, others, middle, made, pushed, more, rfl⟩ := push_of_run_addAudioFrom added
    have known : node.length? draft.graph.length? = some length :=
      length?_audioNode made fun offset offsetAt => ready.sounds track slot offset
        (own 0 slot rfl) offsetAt
    have between : middle.graph.SegmentsLast := by
      rw [pushed]
      refine before.push fun _ => ?_
      obtain ⟨_, _, _, _, _, _, rfl⟩ := audioNode_of_ok made
      obtain ⟨index, indexed, durationAt⟩ := ready.place
      exact ⟨index, length, indexed, durationAt, known⟩
    have first : middle.graph.length? (.node draft.graph.nodes.length) = some length := by
      rw [pushed, Graph.length?_push_self, known]
    obtain ⟨later, last⟩ := ih more (by rw [pushed]; exact ready)
      (fun place found foundAt => by
        have shifted := own (place + 1) found (by simpa using foundAt)
        rwa [Nat.add_comm place, ← Nat.add_assoc] at shifted) between
    refine ⟨?_, last⟩
    intro position present
    rcases List.mem_cons.mp present with rfl | inOthers
    · exact (extends_of_run_addAudioFrom more).length?_eq first
    · exact later position inOthers

/-- Every node of a cut is as long as the cut. -/
theorem Segment.last_of_run_ofCut {segment : Segment}
    (added : (ofCut style total cut).run draft = .ok segment after)
    (ready : cut.Lasts draft.graph.inputs draft.graph.durations length)
    (before : draft.graph.SegmentsLast) :
    segment.Lasts after.graph length ∧ after.graph.SegmentsLast := by
  obtain ⟨sounds, shown, heard, picture, tracks, mixed, _, duration⟩ := parts_of_run_ofCut added
  obtain ⟨index, indexed, durationAt⟩ := ready.place
  obtain ⟨node, made, videoAt, pictured⟩ := SegmentStyle.push_of_run_addVideo picture
  have known : node.length? draft.graph.length? = some length :=
    SegmentStyle.length?_videoNode made ready.picture
  have shownLast : shown.graph.SegmentsLast := by
    rw [pictured]
    refine before.push fun _ => ?_
    obtain ⟨_, _, rfl⟩ := SegmentStyle.videoNode_of_ok made
    exact ⟨index, length, indexed, durationAt, known⟩
  have shownPicture : shown.graph.length? (.node segment.video) = some length := by
    rw [pictured, videoAt, Graph.length?_push_self, known]
  obtain ⟨soundsLast, heardLast⟩ := SegmentStyle.last_of_run_addAudioFrom tracks
    (by rw [pictured]; exact ready) (fun place slot found => by rwa [Nat.zero_add]) shownLast
  have grown := SegmentStyle.extends_of_run_addAudioFrom tracks
  obtain ⟨present, audioAt, mixedGraph⟩ := push_of_run_addMix mixed
  have mixKnown : (mixNode cut.index sounds).length? heard.graph.length? = some length :=
    length?_mixNode present soundsLast
  have finish : heard.graph.Extends after.graph := by
    rw [mixedGraph]
    exact .single _ _
  refine ⟨⟨by rw [duration, ready.duration], (grown.trans finish).length?_eq shownPicture, ?_⟩, ?_⟩
  · rw [mixedGraph, audioAt, Graph.length?_push_self, mixKnown]
  · rw [mixedGraph]
    refine heardLast.push fun _ => ⟨index, length, indexed, ?_, mixKnown⟩
    rw [grown.durations_eq, pictured]
    exact durationAt

theorem Segment.Lasts.extends {graph grown : Graph} {segment : Segment}
    (lasts : segment.Lasts graph length) (extended : graph.Extends grown) :
    segment.Lasts grown length :=
  ⟨lasts.duration, extended.length?_eq lasts.picture, extended.length?_eq lasts.sound⟩

theorem Compilation.last_of_run_addSegments {windows : List Window} {durations : List Value}
    {cuts : List CutInputs} {segments : List Segment} {lengths : List Int}
    (added : (addSegments style total cuts).run draft = .ok segments after)
    (inputs : draft.graph.inputs = windows) (given : draft.graph.durations = durations)
    (ready : List.Forall₂ (CutInputs.Lasts windows durations) cuts lengths)
    (before : draft.graph.SegmentsLast) :
    List.Forall₂ (Segment.Lasts after.graph) segments lengths ∧ after.graph.SegmentsLast := by
  induction ready generalizing draft segments with
  | nil =>
    obtain ⟨rfl, rfl⟩ := of_run_addSegments_nil added
    exact ⟨.nil, before⟩
  | @cons cut length cuts lengths first _ ih =>
    obtain ⟨segment, others, middle, one, more, rfl⟩ := steps_of_run_addSegments added
    obtain ⟨lasts, between⟩ :=
      Segment.last_of_run_ofCut one (by rw [inputs, given]; exact first) before
    have grown := Segment.extends_of_run_ofCut one
    obtain ⟨later, last⟩ := ih more (grown.inputs_eq.trans inputs)
      (grown.durations_eq.trans given) between
    exact ⟨.cons (lasts.extends (extends_of_run_addSegments more)) later, last⟩

end Cuts

/-! ## Joins -/

namespace Transition

variable {transition : Transition} {crossfade offset : Int} {op : Op}

theorem videoOp_int (transition : Transition) (crossfade offset : Int) :
    transition.videoOp (.int crossfade) (.int offset) =
      .ok (if crossfade ≤ 0 then .of "concat" [] [("n", .int 2), ("v", .int 1), ("a", .int 0)]
        else .of "xfade" [] [("transition", .text transition.name), ("duration", .int crossfade),
          ("offset", .int offset)]) := by
  rw [videoOp, Value.le_int]
  by_cases nothing : crossfade ≤ 0
  · simp only [nothing, if_true]
    rfl
  · simp only [nothing, if_false]
    rfl

theorem audioOp_int (crossfade : Int) :
    audioOp (.int crossfade) =
      .ok (if crossfade ≤ 0 then .of "concat" [] [("n", .int 2), ("v", .int 0), ("a", .int 1)]
        else .of "acrossfade" [] [("d", .int crossfade)]) := by
  rw [audioOp, Value.le_int]
  by_cases nothing : crossfade ≤ 0
  · simp only [nothing, if_true]
    rfl
  · simp only [nothing, if_false]
    rfl

/-- Where the left picture ends one crossfade after the offset, the right one follows the offset,
with or without a crossfade. -/
theorem length?_videoOp (given : transition.videoOp (.int crossfade) (.int offset) = .ok op)
    (nonneg : 0 ≤ crossfade) (right : Int) :
    op.length? [offset + crossfade, right] = some (offset + right) := by
  rw [videoOp_int] at given
  cases given
  split
  · -- Without a crossfade the right picture follows the left one.
    obtain rfl : crossfade = 0 := by omega
    show some (offset + 0 + right) = _
    rw [Int.add_zero]
  · rfl

theorem length?_audioOp (given : audioOp (.int crossfade) = .ok op) (nonneg : 0 ≤ crossfade)
    (left right : Int) : op.length? [left, right] = some (left + right - crossfade) := by
  rw [audioOp_int] at given
  cases given
  split
  · obtain rfl : crossfade = 0 := by omega
    show some (left + right) = _
    rw [Int.sub_zero]
  · rfl

theorem offset_of_videoOp (given : transition.videoOp (.int crossfade) (.int offset) = .ok op)
    (positive : 0 < crossfade) : op.name = "xfade" ∧ op.whole? "offset" = some offset := by
  rw [videoOp_int, if_neg (Int.not_le.mpr positive)] at given
  cases given
  exact ⟨rfl, rfl⟩

end Transition

/-- The picture and the sound of a join, which starts its cut at the same second in both: what has
been composed before is equally long in both, and ends one crossfade after the offset. -/
def Graph.JoinInSync (graph : Graph) (crossfade : Int) (video audio : Node) : Prop :=
  ∃ (length : Int) (picture nextPicture sound nextSound : Nat),
    video.sources = [.node picture, .node nextPicture] ∧
    audio.sources = [.node sound, .node nextSound] ∧
    graph.length? (.node picture) = some length ∧ graph.length? (.node sound) = some length ∧
    (0 < crossfade → ∃ op offset, video.ops = [op] ∧ op.name = "xfade" ∧
      op.whole? "offset" = some offset ∧ length = offset + crossfade)

theorem Graph.JoinInSync.extends {graph grown : Graph} {crossfade : Int} {video audio : Node}
    (inSync : graph.JoinInSync crossfade video audio) (extended : graph.Extends grown) :
    grown.JoinInSync crossfade video audio := by
  obtain ⟨length, picture, nextPicture, sound, nextSound, videoReads, audioReads, pictured,
    sounded, offset⟩ := inSync
  exact ⟨length, picture, nextPicture, sound, nextSound, videoReads, audioReads,
    extended.length?_eq pictured, extended.length?_eq sounded, offset⟩

/-- A segment is joined in sync by two nodes of a graph. -/
def Graph.JoinsInSync (graph : Graph) (crossfade : Int) (segment : Segment) : Prop :=
  ∃ video ∈ graph.nodes, ∃ audio ∈ graph.nodes, video.key = (.videoJoin, segment.index, 0) ∧
    audio.key = (.audioJoin, segment.index, 0) ∧ graph.JoinInSync crossfade video audio

theorem Graph.JoinsInSync.extends {graph grown : Graph} {crossfade : Int} {segment : Segment}
    (inSync : graph.JoinsInSync crossfade segment) (extended : graph.Extends grown) :
    grown.JoinsInSync crossfade segment := by
  obtain ⟨video, videoIn, audio, audioIn, videoKey, audioKey, both⟩ := inSync
  exact ⟨video, extended.subset videoIn, audio, extended.subset audioIn, videoKey, audioKey,
    both.extends extended⟩

namespace Composite

variable {draft after : Draft} {transition : Transition} {state final : Composite}
  {crossfade elapsed length : Int} {joins : Nat}

/-- What has been composed with some count of joins, of segments with `elapsed` seconds in all. -/
structure Lasts (graph : Graph) (state : Composite) (crossfade elapsed : Int) (joins : Nat) :
    Prop where
  addedUp : state.elapsed = .int elapsed
  picture : graph.length? (.node state.video) = some (elapsed - crossfade * (joins : Int))
  sound : graph.length? (.node state.audio) = some (elapsed - crossfade * (joins : Int))

theorem length?_joinNode {graph : Graph} {role : NodeRole} {kind : StreamKind} {index : Int}
    {left right : Nat} {op : Op} {leftLength rightLength : Int}
    (leftKnown : graph.length? (.node left) = some leftLength)
    (rightKnown : graph.length? (.node right) = some rightLength) :
    (joinNode role kind index left right op).length? graph.length? =
      op.length? [leftLength, rightLength] := by
  simp only [Node.length?, joinNode, List.mapM_cons, List.mapM_nil, leftKnown, rightKnown]
  show (op.length? [leftLength, rightLength]).bind _ = _
  cases op.length? [leftLength, rightLength] <;> rfl

/-- A join keeps the picture and the sound equally long and is in sync itself. -/
theorem lasts_of_run_join {segment : Segment}
    (joined : (join (.int crossfade) transition state segment).run draft = .ok final after)
    (nonneg : 0 ≤ crossfade) (index : segment.index = (joins + 1 : Nat))
    (lasts : state.Lasts draft.graph crossfade elapsed joins)
    (own : segment.Lasts draft.graph length) :
    final.Lasts after.graph crossfade (elapsed + length) (joins + 1) ∧
      after.graph.JoinsInSync crossfade segment := by
  obtain ⟨offset, videoOp, audioOp, total, offsetGiven, videoGiven, audioGiven, totalGiven, pushed,
    rfl⟩ := push_of_run_join joined
  rw [lasts.addedUp, index, Value.lessMultiple_int] at offsetGiven
  rw [lasts.addedUp, own.duration, Value.add_int] at totalGiven
  cases offsetGiven
  cases totalGiven
  let video := joinNode .videoJoin .video segment.index state.video segment.video videoOp
  let audio := joinNode .audioJoin .audio segment.index state.audio segment.audio audioOp
  let shown := draft.graph.push video
  have first : draft.graph.Extends shown := .single _ video
  have second : shown.Extends after.graph := pushed ▸ .single shown audio
  -- The offset counts this join too, the lengths so far do not.
  have left : elapsed - crossfade * (joins : Int) =
      elapsed - crossfade * ((joins + 1 : Nat) : Int) + crossfade := by
    rw [Int.natCast_add, Int.mul_add]
    omega
  have pictured : video.length? draft.graph.length? =
      some (elapsed + length - crossfade * ((joins + 1 : Nat) : Int)) := by
    rw [length?_joinNode lasts.picture own.picture, left,
      Transition.length?_videoOp videoGiven nonneg]
    congr 1
    omega
  have sounded : audio.length? shown.length? =
      some (elapsed + length - crossfade * ((joins + 1 : Nat) : Int)) := by
    rw [length?_joinNode (first.length?_eq lasts.sound) (first.length?_eq own.sound), left,
      Transition.length?_audioOp audioGiven nonneg]
    congr 1
    omega
  have videoAt : shown.length? (.node draft.graph.nodes.length) =
      some (elapsed + length - crossfade * ((joins + 1 : Nat) : Int)) := by
    rw [Graph.length?_push_self, pictured]
  have audioAt : after.graph.length? (.node (draft.graph.nodes.length + 1 : Nat)) =
      some (elapsed + length - crossfade * ((joins + 1 : Nat) : Int)) := by
    have place : draft.graph.nodes.length + 1 = shown.nodes.length := by simp [shown]
    rw [pushed, place, Graph.length?_push_self, sounded]
  refine ⟨⟨rfl, second.length?_eq videoAt, audioAt⟩, video, ?_, audio, ?_, rfl, rfl, ?_⟩
  · exact second.subset (List.mem_append_right _ (List.mem_singleton_self _))
  · rw [pushed]
    exact List.mem_append_right _ (List.mem_singleton_self _)
  · refine ⟨_, state.video, segment.video, state.audio, segment.audio, rfl, rfl,
      (first.trans second).length?_eq lasts.picture, (first.trans second).length?_eq lasts.sound,
      fun positive => ?_⟩
    obtain ⟨name, offset⟩ := Transition.offset_of_videoOp videoGiven positive
    exact ⟨videoOp, _, rfl, name, offset, left⟩

/-- Joins that follow each other stay in sync, and none of them changes the nodes of a cut. -/
theorem lasts_of_run_joinAll {segments : List Segment} {lengths : List Int}
    (joined : (joinAll (.int crossfade) transition state segments).run draft = .ok final after)
    (nonneg : 0 ≤ crossfade)
    (indices : segments.map (·.index) =
      (List.range' (joins + 1) segments.length).map fun (place : Nat) => (place : Int))
    (lasts : state.Lasts draft.graph crossfade elapsed joins)
    (ready : List.Forall₂ (Segment.Lasts draft.graph) segments lengths)
    (before : draft.graph.SegmentsLast) :
    final.Lasts after.graph crossfade (lengths.foldl (· + ·) elapsed) (joins + segments.length) ∧
      (∀ segment ∈ segments, after.graph.JoinsInSync crossfade segment) ∧
      after.graph.SegmentsLast := by
  induction segments generalizing draft state elapsed joins lengths with
  | nil =>
    obtain ⟨rfl, rfl⟩ := of_run_joinAll_nil joined
    cases ready
    refine ⟨?_, by simp, before⟩
    simpa using lasts
  | cons segment segments ih =>
    obtain ⟨next, middle, one, more⟩ := steps_of_run_joinAll joined
    cases ready with
    | @cons _ length _ lengths own others =>
      rw [List.length_cons, List.range'_succ, List.map_cons, List.map_cons] at indices
      obtain ⟨index, indices⟩ := List.cons.inj indices
      obtain ⟨nextLasts, inSync⟩ := lasts_of_run_join one nonneg index lasts own
      obtain ⟨_, videoOp, audioOp, _, _, _, _, _, pushed, _⟩ := push_of_run_join one
      have grown : draft.graph.Extends middle.graph := pushed ▸ (Graph.Extends.single _ _).push _
      have between : middle.graph.SegmentsLast := by
        rw [pushed]
        exact (before.push (by simp [Node.ofSegment, joinNode])).push
          (by simp [Node.ofSegment, joinNode])
      obtain ⟨finalLasts, laterInSync, last⟩ := ih more indices nextLasts
        (others.imp fun _ _ lasts => lasts.extends grown) between
      refine ⟨?_, ?_, last⟩
      · rw [List.foldl_cons, List.length_cons, Nat.add_comm segments.length, ← Nat.add_assoc]
        exact finalLasts
      · exact List.forall_mem_cons.mpr ⟨inSync.extends (extends_of_run_joinAll more), laterInSync⟩

end Composite

/-! ## The finished graph -/

/-- A graph in which picture and sound stay together from the first cut to the last. -/
structure Graph.Synchronous (graph : Graph) (crossfade : Int) : Prop where
  /-- The nodes of every cut are as long as the cut. -/
  segments : graph.SegmentsLast
  /-- A join starts its cut at the same second in picture and sound. -/
  joins : ∀ video ∈ graph.nodes, ∀ audio ∈ graph.nodes, video.role = .videoJoin →
    audio.role = .audioJoin → video.index = audio.index → graph.JoinInSync crossfade video audio
  /-- Every cut but the first is joined. -/
  joined : ∀ index : Nat, 0 < index → index < graph.durations.length →
    ∃ video ∈ graph.nodes, ∃ audio ∈ graph.nodes, video.role = .videoJoin ∧
      audio.role = .audioJoin ∧ video.index = index ∧ audio.index = index
  /-- What leaves the graph is as long as the timeline. -/
  outputs : ∃ (video audio : Nat) (total : Int), graph.videoOut = some (video : Int) ∧
    graph.audioOut = some (audio : Int) ∧ graph.total = .int total ∧
    graph.length? (.node video) = some total ∧ graph.length? (.node audio) = some total

/-- Every cut is as long as its windows make it. -/
theorem CutInputs.CutsResolved.lasts {base : Path} {cuts : List Cut} {windows : List Window}
    {inputs : List CutInputs} (resolved : CutsResolved base 0 0 cuts windows inputs) :
    ∃ lengths, List.Forall₂ (CutInputs.Lasts windows (inputs.map (·.duration))) inputs lengths := by
  have each : ∀ input ∈ inputs, ∃ length,
      CutInputs.Lasts windows (inputs.map (·.duration)) input length := by
    intro input present
    obtain ⟨place, inputAt⟩ := List.mem_iff_getElem?.mp present
    have within : place < cuts.length := by
      rw [← resolved.length_eq]
      exact (List.getElem?_eq_some_iff.mp inputAt).1
    obtain ⟨slot, own, found, start, duration, foundAt, isFound, inWindows⟩ :=
      resolved.locate (List.getElem?_eq_getElem within)
    rw [Nat.zero_add, Nat.zero_add] at isFound
    obtain rfl : found = input := by simpa [foundAt] using inputAt
    obtain ⟨path, entries, _, _, ownIs, inputIs⟩ := isFound.rest
    have lasts : found.duration = .int duration := by rw [inputIs]
    refine ⟨duration, lasts, ⟨place, isFound.index_eq, by simp [foundAt, lasts]⟩, ?_, ?_⟩
    · have pictured := inWindows 0 _ (by rw [ownIs]; rfl)
      have slotIs : found.video = (slot : Int) := by rw [inputIs]
      rw [slotIs, Value.itemAt?_natCast]
      rw [Nat.add_zero] at pictured
      rw [pictured]
      rfl
    · intro sound soundSlot offset soundAt offsetAt
      have inCut : sound < found.audio.length := (List.getElem?_eq_some_iff.mp soundAt).1
      rw [isFound.soundCount] at inCut
      obtain ⟨window, shift, _, windowAt, _, length, _, _, slotAt, shiftAt, _⟩ :=
        isFound.sound (Nat.le_of_lt_succ inCut)
      obtain rfl : ((slot + sound : Nat) : Int) = soundSlot := by simpa [slotAt] using soundAt
      obtain rfl : shift = offset := by simpa [shiftAt] using offsetAt
      rw [Value.itemAt?_natCast, inWindows sound window windowAt, Option.map_some, length]
  choose! length spec using each
  exact ⟨inputs.map length, List.forall₂_map_right_iff.mpr (List.forall₂_same.mpr spec)⟩

/-- Items with durations in whole seconds, one by one, have these durations together. -/
theorem map_duration_eq {α : Type} {duration : α → Value} {items : List α} {lengths : List Int}
    (each : List.Forall₂ (fun item length => duration item = .int length) items lengths) :
    items.map duration = lengths.map Value.int := by
  induction each with
  | nil => rfl
  | cons first _ ih => rw [List.map_cons, List.map_cons, first, ih]

theorem Compilation.totalOf_int (crossfade length : Int) (lengths : List Int) :
    Timeline.totalOf ((length :: lengths).map Value.int) (.int crossfade) =
      .ok (.int (lengths.foldl (· + ·) length - crossfade * (lengths.length : Int))) := by
  rw [Timeline.totalOf, if_neg (by simp)]
  refine except_bind_eq_ok_iff.mpr ⟨_, Value.sum_int _, ?_⟩
  rw [Value.lessMultiple_int, List.foldl_cons, Int.zero_add, List.length_map, List.length_cons,
    Int.natCast_succ, Int.add_sub_cancel]

namespace Compilation

variable {existence : ExistenceCheck} {transition : Transition} {project : Project}
  {draft after : Draft} {graph : Graph}

namespace Built

variable {assembly : Assembly} {first : Segment} {rest : List Segment} {crossfade : Int}

theorem crossfade_nonneg (built : Built transition project graph assembly)
    (whole : project.fade.crossfade = .int crossfade) : 0 ≤ crossfade := by
  obtain ⟨_, _, passed⟩ := checkFade_eq_ok_iff.mp built.fade
  obtain ⟨_, passed⟩ := checkLength_eq_ok_iff.mp passed
  rw [whole, Value.lt_int] at passed
  simpa using passed

/-- The segments are as long as the cuts, and so is every node of theirs. -/
theorem segmentsLast (built : Built transition project graph assembly) :
    ∃ lengths : List Int, assembly.cuts.map (·.duration) = lengths.map Value.int ∧
      List.Forall₂ (Segment.Lasts assembly.segmented.graph) assembly.segments lengths ∧
      assembly.segmented.graph.SegmentsLast := by
  obtain ⟨lengths, cutsLast⟩ := built.resolved.lasts
  have noNodes : assembly.begun.graph.SegmentsLast := by
    rw [built.begins]
    intro position node found
    simp at found
  exact ⟨lengths, map_duration_eq (cutsLast.imp fun _ _ lasts => lasts.duration),
    last_of_run_addSegments built.segments (by rw [built.begins]) (by rw [built.begins]) cutsLast
      noNodes⟩

/-- What has been composed in the end is as long as the timeline, and all joins are in sync. -/
theorem composed (built : Built transition project graph assembly)
    (whole : project.fade.crossfade = .int crossfade)
    (split : assembly.segments = first :: rest) :
    ∃ total : Int, graph.total = .int total ∧
      graph.length? (.node assembly.final.video) = some total ∧
      graph.length? (.node assembly.final.audio) = some total ∧
      (∀ segment ∈ rest, graph.JoinsInSync crossfade segment) ∧ graph.SegmentsLast := by
  obtain ⟨lengths, durations, segmentsLast, before⟩ := built.segmentsLast
  have joins := built.joins
  rw [split] at segmentsLast joins
  rw [whole] at joins
  cases segmentsLast with
  | @cons _ length _ others ownLast othersLast =>
    -- Nothing has been joined to the first segment yet.
    have start : (Composite.ofSegment first).Lasts assembly.segmented.graph crossfade length 0 :=
      ⟨ownLast.duration, by simpa [Composite.ofSegment] using ownLast.picture,
        by simpa [Composite.ofSegment] using ownLast.sound⟩
    obtain ⟨finalLasts, inSync, last⟩ := Composite.lasts_of_run_joinAll joins
      (built.crossfade_nonneg whole) (built.rest_indices_eq split) start othersLast before
    obtain ⟨total, _⟩ := checkTotal_eq_ok_iff.mp built.total
    rw [durations, whole, totalOf_int] at total
    have totalIs := (Except.ok.inj total).symm
    rw [Nat.zero_add, othersLast.length_eq] at finalLasts
    rw [built.graph]
    exact ⟨_, totalIs, finalLasts.picture, finalLasts.sound, inSync, last⟩

/-- The node of a joined picture is that of some segment but the first. -/
theorem segment_of_videoJoin (built : Built transition project graph assembly)
    (split : assembly.segments = first :: rest) {video : Node} (present : video ∈ graph.nodes)
    (isVideo : video.role = .videoJoin) : ∃ segment ∈ rest, segment.index = video.index := by
  have key : video.key ∈ graph.keys := List.mem_map_of_mem present
  rw [(built.keys_perm split).mem_iff, (Node.key_eq_iff (by decide)).mpr ⟨isVideo, rfl⟩,
    List.mem_append] at key
  rcases key with ofCut | ofJoin
  · obtain ⟨cut, _, ofCut⟩ := List.mem_flatMap.mp ofCut
    simp [CutInputs.keys] at ofCut
  · obtain ⟨segment, segmentIn, ofJoin⟩ := List.mem_flatMap.mp ofJoin
    refine ⟨segment, segmentIn, ?_⟩
    simpa [Segment.joinKeys, eq_comm] using ofJoin

end Built

/-- With a crossfade in whole seconds, picture and sound of a built graph stay together. -/
theorem synchronous_of_run_build {crossfade : Int}
    (compiled : (build existence transition project).run draft = .ok graph after)
    (whole : project.fade.crossfade = .int crossfade) : graph.Synchronous crossfade := by
  obtain ⟨assembly, built⟩ := built_of_run compiled
  obtain ⟨first, rest, split, _⟩ := Composite.steps_of_run_compose built.joins
  obtain ⟨total, totalIs, picture, sound, inSync, segments⟩ := built.composed whole split
  constructor
  case segments => exact segments
  case joins =>
    intro video videoIn audio audioIn isVideo isAudio same
    -- Both nodes have the keys of the join of one segment, and no other nodes have these.
    obtain ⟨segment, segmentIn, isIndex⟩ := built.segment_of_videoJoin split videoIn isVideo
    obtain ⟨foundVideo, foundVideoIn, foundAudio, foundAudioIn, videoKey, audioKey, both⟩ :=
      inSync segment segmentIn
    have videoIs : video.key = (.videoJoin, segment.index, 0) :=
      (Node.key_eq_iff (by decide)).mpr ⟨isVideo, isIndex.symm⟩
    have audioIs : audio.key = (.audioJoin, segment.index, 0) :=
      (Node.key_eq_iff (by decide)).mpr ⟨isAudio, same.symm.trans isIndex.symm⟩
    rw [Graph.eq_of_key built.nodup_keys videoIn foundVideoIn (videoIs.trans videoKey.symm),
      Graph.eq_of_key built.nodup_keys audioIn foundAudioIn (audioIs.trans audioKey.symm)]
    exact both
  case joined =>
    intro index positive within
    have present : (index : Int) ∈ rest.map (·.index) := by
      rw [built.durations_eq, List.length_map, ← built.segments_length, split,
        List.length_cons] at within
      rw [built.rest_indices_eq split]
      exact List.mem_map.mpr ⟨index, List.mem_range'_1.mpr ⟨positive, by omega⟩, rfl⟩
    obtain ⟨segment, segmentIn, isIndex⟩ := List.mem_map.mp present
    obtain ⟨video, videoIn, audio, audioIn, videoKey, audioKey, _⟩ := inSync segment segmentIn
    obtain ⟨isVideo, videoIndex⟩ := (Node.key_eq_iff (by decide)).mp videoKey
    obtain ⟨isAudio, audioIndex⟩ := (Node.key_eq_iff (by decide)).mp audioKey
    exact ⟨video, videoIn, audio, audioIn, isVideo, isAudio, videoIndex.trans isIndex,
      audioIndex.trans isIndex⟩
  case outputs =>
    refine ⟨assembly.final.video, assembly.final.audio, total, ?_, ?_, totalIs, picture, sound⟩
    · rw [built.graph]
    · rw [built.graph]

theorem synchronous_sampleProject : ∃ graph after,
    (build (fun _ _ => .ok true) .plain sampleProject).run {} = .ok graph after ∧
      graph.Synchronous 1 := by
  have succeeds : Drafting.succeeds
      (build (fun _ _ => .ok true) .plain sampleProject) {} (fun _ => true) = true := by
    decide +kernel
  obtain ⟨graph, after, compiled, _⟩ := exists_of_succeeds succeeds
  exact ⟨graph, after, compiled, synchronous_of_run_build compiled rfl⟩

end Compilation

end Montage
