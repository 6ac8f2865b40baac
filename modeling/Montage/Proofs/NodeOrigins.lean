import Montage.Proofs.Joins

/-!
# Where the nodes of a graph come from

A built graph holds the nodes that draw its cuts and those that join them, and no others. The nodes
of a cut are its picture, its sounds and their mix (`SegmentStyle.Draws`), those of a join are a
picture and a sound (`Composite.Joins`). Main statement: `Built.origin`, which tells every node of
a built graph by what it was made from.
-/

namespace Montage

open Drafting

/-- The nodes of a cut, each with the operations that the style gives it. -/
inductive SegmentStyle.Draws (style : SegmentStyle) (total : Int) (cut : CutInputs) : Node → Prop
  | picture {ops : List Op} : style.videoOps cut total = .ok ops →
      Draws style total cut ⟨.segmentVideo, .video, cut.index, [.input cut.video .video], ops, 0⟩
  | sound {track : Nat} {slot offset : Int} {volume : Value} {ops : List Op} :
      cut.audio[track]? = some slot → cut.offsets[track]? = some offset →
      cut.volumes[track]? = some volume → style.audioOps cut total offset volume = .ok ops →
      Draws style total cut ⟨.segmentAudio, .audio, cut.index, [.input slot .audio], ops, track⟩
  | mix (sounds : List Nat) : Draws style total cut (Segment.mixNode cut.index sounds)

/-- The nodes of a join. The picture starts as long after what has been composed before it as the
crossfades up to it leave. -/
inductive Composite.Joins (crossfade : Value) (transition : Transition) : Node → Prop
  | picture {elapsed offset : Value} {index : Int} {left right : Nat} {op : Op} :
      elapsed.lessMultiple crossfade index = .ok offset →
      transition.videoOp crossfade offset = .ok op →
      Joins crossfade transition (joinNode .videoJoin .video index left right op)
  | sound {index : Int} {left right : Nat} {op : Op} : Transition.audioOp crossfade = .ok op →
      Joins crossfade transition (joinNode .audioJoin .audio index left right op)

variable {draft after : Draft} {style : SegmentStyle} {total : Int} {cut : CutInputs} {node : Node}

theorem SegmentStyle.earlier_or_sound_of_run_addAudioFrom {track : Nat} {slots : List Int}
    {positions : List Nat}
    (added : (style.addAudioFrom cut total track slots).run draft = .ok positions after)
    (present : node ∈ after.graph.nodes) :
    node ∈ draft.graph.nodes ∨ ∃ place slot, slots[place]? = some slot ∧
      style.audioNode cut total (track + place) slot = .ok node := by
  induction slots generalizing track draft positions with
  | nil =>
    obtain ⟨_, rfl⟩ := of_run_addAudioFrom_nil added
    exact .inl present
  | cons slot slots ih =>
    obtain ⟨first, others, middle, made, pushed, more, _⟩ := push_of_run_addAudioFrom added
    rcases ih more with before | ⟨place, later, laterAt, isLater⟩
    · rw [pushed, Graph.nodes_push, List.mem_append, List.mem_singleton] at before
      rcases before with before | rfl
      · exact .inl before
      · exact .inr ⟨0, slot, rfl, made⟩
    · refine .inr ⟨place + 1, later, laterAt, ?_⟩
      rwa [Nat.add_assoc, Nat.add_comm 1] at isLater

theorem SegmentStyle.draws_of_audioNode {track : Nat} {slot : Int}
    (listed : cut.audio[track]? = some slot)
    (made : style.audioNode cut total track slot = .ok node) : style.Draws total cut node := by
  obtain ⟨offset, volume, ops, offsetAt, volumeAt, given, rfl⟩ := audioNode_of_ok made
  exact .sound listed offsetAt volumeAt given

/-- What is added for a cut draws it. -/
theorem Segment.earlier_or_draws_of_run_ofCut {segment : Segment}
    (added : (ofCut style total cut).run draft = .ok segment after)
    (present : node ∈ after.graph.nodes) :
    node ∈ draft.graph.nodes ∨ style.Draws total cut node := by
  obtain ⟨sounds, shown, heard, picture, tracks, mixed, _, _⟩ := parts_of_run_ofCut added
  obtain ⟨first, made, _, pictured⟩ := SegmentStyle.push_of_run_addVideo picture
  obtain ⟨_, _, mixedGraph⟩ := push_of_run_addMix mixed
  rw [mixedGraph, Graph.nodes_push, List.mem_append, List.mem_singleton] at present
  rcases present with before | rfl
  · rcases SegmentStyle.earlier_or_sound_of_run_addAudioFrom tracks before with
      before | ⟨place, slot, slotAt, isSound⟩
    · rw [pictured, Graph.nodes_push, List.mem_append, List.mem_singleton] at before
      rcases before with before | rfl
      · exact .inl before
      · obtain ⟨ops, given, rfl⟩ := SegmentStyle.videoNode_of_ok made
        exact .inr (.picture given)
    · rw [Nat.zero_add] at isSound
      exact .inr (SegmentStyle.draws_of_audioNode slotAt isSound)
  · exact .inr (.mix sounds)

theorem Compilation.earlier_or_draws_of_run_addSegments {cuts : List CutInputs}
    {segments : List Segment}
    (added : (addSegments style total cuts).run draft = .ok segments after)
    (present : node ∈ after.graph.nodes) :
    node ∈ draft.graph.nodes ∨ ∃ cut ∈ cuts, style.Draws total cut node := by
  induction cuts generalizing draft segments with
  | nil =>
    obtain ⟨_, rfl⟩ := of_run_addSegments_nil added
    exact .inl present
  | cons cut cuts ih =>
    obtain ⟨segment, others, middle, one, more, _⟩ := steps_of_run_addSegments added
    rcases ih more with before | ⟨later, laterIn, drawn⟩
    · rcases Segment.earlier_or_draws_of_run_ofCut one before with before | drawn
      · exact .inl before
      · exact .inr ⟨cut, List.mem_cons_self, drawn⟩
    · exact .inr ⟨later, List.mem_cons_of_mem cut laterIn, drawn⟩

theorem Composite.Joined.joins_of_mem {crossfade : Value} {transition : Transition}
    {position : Nat} {state final : Composite} {segments : List Segment} {nodes : List Node}
    (joined : Joined crossfade transition position state segments nodes final)
    (present : node ∈ nodes) : Joins crossfade transition node := by
  induction joined with
  | nil => cases present
  | cons offsetGiven videoGiven audioGiven _ _ ih =>
    rcases List.mem_cons.mp present with rfl | present
    · exact .picture offsetGiven videoGiven
    · rcases List.mem_cons.mp present with rfl | later
      · exact .sound audioGiven
      · exact ih later

/-- Every node of a built graph draws a cut or belongs to a join. -/
theorem Compilation.Built.origin {transition : Transition} {project : Project} {graph : Graph}
    {assembly : Assembly} (built : Built transition project graph assembly)
    (present : node ∈ graph.nodes) :
    (∃ cut ∈ assembly.cuts,
      (SegmentStyle.ofProject project).Draws assembly.cuts.length cut node) ∨
      Composite.Joins project.fade.crossfade transition node := by
  obtain ⟨first, rest, _, joins⟩ := Composite.steps_of_run_compose built.joins
  obtain ⟨nodes, grown, joined⟩ := Composite.joined_of_run_joinAll joins
  rw [built.nodes_eq, grown] at present
  rcases List.mem_append.mp present with ofCut | ofJoin
  · rcases earlier_or_draws_of_run_addSegments built.segments ofCut with before | drawn
    · rw [built.begins] at before
      cases before
    · exact .inl drawn
  · exact .inr (joined.joins_of_mem ofJoin)

end Montage
