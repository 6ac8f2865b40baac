import Montage.Proofs.Joins
import Montage.Proofs.Synchrony
import Montage.Proofs.TotalLength

/-!
# Where joins start

The second at which a join starts is told twice. Joining adds up the lengths of the segments and
takes off one crossfade for every join up to the index of the segment; the timeline takes the
lengths before the join from the list of all lengths. Main statements: `composed_of_whole`, what
composing any segments in whole seconds gives, and `startsAsTimed_of_run_build`, that in a built
graph both tell the same number, whatever kind of number the crossfade is.
-/

namespace Montage

open Drafting

/-- The operation that fades two pictures over from an offset on. -/
def Transition.fadeOver (transition : Transition) (crossfade offset : Value) : Op :=
  .of "xfade" []
    [("transition", .text transition.name), ("duration", crossfade), ("offset", offset)]

theorem Transition.videoOp_of_fades {crossfade : Value} (fades : crossfade.le (.int 0) = .ok false)
    (transition : Transition) (offset : Value) :
    transition.videoOp crossfade offset = .ok (transition.fadeOver crossfade offset) := by
  rw [videoOp, fades]
  rfl

/-! ## Composing in whole seconds -/

namespace Composite

/-- What composing segments of some lengths has made of a graph. -/
structure Composed (transition : Transition) (crossfade : Int) (first : Segment)
    (rest : List Segment) (lengths : List Int) (graph grown : Graph) (final : Composite) :
    Prop where
  /-- Two nodes are added for each segment but the first, and nothing else is changed. -/
  added : ∃ nodes, nodes.length = 2 * rest.length ∧
    grown = { graph with nodes := graph.nodes ++ nodes }
  /-- Each segment is joined to what the joins before it have left, its picture and then its
  sound. With a crossfade its picture fades over once the segments before it have passed, less one
  crossfade for each count of its index. -/
  joins : ∀ (place : Nat) segment, rest[place]? = some segment →
    let left := outputsAfter (first.video, first.audio) graph.nodes.length place
    ∃ videoOp audioOp,
      grown.nodes[graph.nodes.length + 2 * place]? = some
        { role := .videoJoin, kind := .video, index := segment.index,
          sources := [.node left.1, .node segment.video], ops := [videoOp] } ∧
      grown.nodes[graph.nodes.length + 2 * place + 1]? = some
        { role := .audioJoin, kind := .audio, index := segment.index,
          sources := [.node left.2, .node segment.audio], ops := [audioOp] } ∧
      (0 < crossfade → videoOp = transition.fadeOver (.int crossfade)
        (.int ((lengths.take (place + 1)).sum - crossfade * segment.index)))
  /-- The nodes of the last join are left, or those of the first segment if it is the only one. -/
  outputs : (final.video, final.audio) =
    outputsAfter (first.video, first.audio) graph.nodes.length rest.length
  elapsed : final.elapsed = .int lengths.sum

variable {transition : Transition} {state final : Composite} {segment first : Segment}
  {segments rest : List Segment} {crossfade elapsed length : Int} {lengths : List Int}

/-- With all lengths in whole seconds a join goes through. -/
theorem run_join_of_whole (transition : Transition) (crossfade : Int)
    (started : state.elapsed = .int elapsed) (lasts : segment.duration = .int length)
    (draft : Draft) :
    ∃ video audio after, (join (.int crossfade) transition state segment).run draft =
      .ok ⟨video, audio, .int (elapsed + length)⟩ after := by
  have lifted {α : Type} {operation : Except Defect α} {result : α}
      (given : operation = .ok result) (draft : Draft) :
      (liftM operation : Drafting α).run draft = .ok result draft :=
    run_lift_defect_eq_ok_iff.mpr ⟨given, rfl⟩
  have offset : state.elapsed.lessMultiple (.int crossfade) segment.index =
      .ok (.int (elapsed - crossfade * segment.index)) := by
    rw [started, Value.lessMultiple_int]
  have added : state.elapsed.add segment.duration = .ok (.int (elapsed + length)) := by
    rw [started, lasts, Value.add_int]
  unfold join
  simp only [EStateM.run_bind, lifted offset, lifted (Transition.videoOp_int _ _ _),
    lifted (Transition.audioOp_int _), lifted added]
  exact ⟨_, _, _, rfl⟩

theorem run_joinAll_of_whole (transition : Transition) (crossfade : Int)
    (started : state.elapsed = .int elapsed)
    (durations : segments.map (·.duration) = lengths.map Value.int) (draft : Draft) :
    ∃ final after, (joinAll (.int crossfade) transition state segments).run draft =
      .ok final after := by
  induction segments generalizing state elapsed lengths draft with
  | nil => exact ⟨state, draft, rfl⟩
  | cons segment segments ih =>
    cases lengths with
    | nil => cases durations
    | cons length lengths =>
      obtain ⟨lasts, others⟩ := List.cons.inj durations
      obtain ⟨video, audio, middle, one⟩ :=
        run_join_of_whole transition crossfade started lasts draft
      let next : Composite := ⟨video, audio, .int (elapsed + length)⟩
      have goesOn : next.elapsed = .int (elapsed + length) := rfl
      obtain ⟨final, after, more⟩ := ih goesOn others middle
      exact ⟨final, after, run_bind_eq_ok_iff.mpr ⟨_, middle, one, more⟩⟩

/-- Segments in whole seconds are always composed, from whatever graph, and with whatever
indices. -/
theorem composed_of_whole (transition : Transition) (crossfade : Int)
    (durations : (first :: rest).map (·.duration) = lengths.map Value.int) (draft : Draft) :
    ∃ final after, (compose (.int crossfade) transition (first :: rest)).run draft =
        .ok final after ∧
      Composed transition crossfade first rest lengths draft.graph after.graph final := by
  cases lengths with
  | nil => cases durations
  | cons length lengths =>
    obtain ⟨lasts, others⟩ := List.cons.inj durations
    have started : (ofSegment first).elapsed = .int length := lasts
    obtain ⟨final, after, ran⟩ := run_joinAll_of_whole transition crossfade started others draft
    obtain ⟨nodes, grown, joined⟩ := joined_of_run_joinAll ran
    obtain ⟨count, outputs, summed⟩ := joined.ends
    refine ⟨final, after, ran, ⟨⟨nodes, count, grown⟩, ?_, outputs, ?_⟩⟩
    · intro place segment found
      have behind (place : Nat) :
          after.graph.nodes[draft.graph.nodes.length + place]? = nodes[place]? := by
        rw [grown, List.getElem?_append_right (Nat.le_add_right ..), Nat.add_sub_cancel_left]
      obtain ⟨left, videoOp, videoAt, videoGiven, rfl⟩ :=
        joined.videoAt_of_whole started others found
      obtain ⟨_, _, _, audioOp, _, _, _, _, _, audioAt, leftIs⟩ := joined.nodesAt found
      have heard := congrArg Prod.snd leftIs
      dsimp only at heard ⊢
      refine ⟨videoOp, audioOp, ?_, ?_, fun positive => ?_⟩
      · rw [behind, videoAt]
        rfl
      · rw [Nat.add_assoc, behind, audioAt, heard]
        rfl
      · rw [Transition.videoOp_int, if_neg (Int.not_le.mpr positive)] at videoGiven
        rw [← Except.ok.inj videoGiven, List.take_succ_cons, List.sum_cons]
        rfl
    · rw [others, started, Value.foldlM_add_int] at summed
      rw [← Except.ok.inj summed, List.sum_eq_foldl, List.foldl_cons, Int.zero_add]

end Composite

/-! ## On the timeline -/

theorem Value.sum_cons_int (first : Int) (rest : List Value) :
    sum (.int first :: rest) = rest.foldlM add (.int first) := by
  rw [sum, List.foldlM_cons, add_int, Int.zero_add]
  rfl

/-- The timeline takes a join from the sum of the lengths before it. -/
theorem Timeline.transitionOffset_of_sum {lengths : List Value} {index : Nat} {passed : Value}
    (summed : Value.sum (lengths.take index) = .ok passed) (crossfade : Value) :
    transitionOffset (.list lengths) crossfade (.int index) =
      passed.lessMultiple crossfade index := by
  have before : lengthsBefore (.list lengths) (.int index) = .ok (lengths.take index) := by
    simp [lengthsBefore, Value.takeBefore, bind, Except.bind, pure, Except.pure,
      Int.not_lt.mpr (Int.natCast_nonneg index)]
  simp [transitionOffset, before, summed, bind, Except.bind]

/-- The picture of a join fades over where the timeline starts the join, and no other node has its
label. -/
def Graph.StartsAsTimed (graph : Graph) (transition : Transition) (index : Nat) : Prop :=
  ∃ video ∈ graph.nodes, video.label = "vxf" ++ decimalText index ∧
    (∃ offset,
      Timeline.transitionOffset (.list graph.durations) graph.crossfade (.int index) = .ok offset ∧
      video.ops = [transition.fadeOver graph.crossfade offset]) ∧
    ∀ other ∈ graph.nodes, other.label = video.label → other = video

namespace Compilation

variable {transition : Transition} {project : Project} {graph : Graph} {assembly : Assembly}

namespace Built

/-- Each cut of a built graph but the first has a node that joins its picture. Its offset is made
from the sum of the lengths before it. -/
theorem videoJoin_at (built : Built transition project graph assembly) {index : Nat}
    (joined : 0 < index) (within : index < graph.durations.length) :
    ∃ (left right : Nat) (passed offset : Value) (videoOp : Op),
      Value.sum (graph.durations.take index) = .ok passed ∧
      passed.lessMultiple project.fade.crossfade index = .ok offset ∧
      transition.videoOp project.fade.crossfade offset = .ok videoOp ∧
      Composite.joinNode .videoJoin .video index left right videoOp ∈ graph.nodes := by
  obtain ⟨lengths, durations, segmentsLast, -⟩ := built.segmentsLast
  obtain ⟨first, rest, split, joins⟩ := Composite.steps_of_run_compose built.joins
  obtain ⟨place, rfl⟩ := Nat.exists_eq_add_one_of_ne_zero (Nat.ne_of_gt joined)
  have whole : (first :: rest).map (·.duration) = lengths.map Value.int := by
    rw [← split]
    exact map_duration_eq (segmentsLast.imp fun _ _ lasts => lasts.duration)
  have segmentDurations : graph.durations = (first :: rest).map (·.duration) := by
    rw [built.durations_eq, durations, whole]
  have inRest : place < rest.length := by
    rw [segmentDurations, List.length_map, List.length_cons] at within
    exact Nat.lt_of_succ_lt_succ within
  have found : rest[place]? = some rest[place] := List.getElem?_eq_getElem inRest
  have isIndex := built.index_of_rest split found
  obtain ⟨nodes, grown, joined⟩ := Composite.joined_of_run_joinAll joins
  obtain ⟨left, offset, videoOp, _, passed, offsetGiven, videoGiven, _, videoAt, _⟩ :=
    joined.nodesAt found
  rw [isIndex] at offsetGiven videoAt
  have summed : Value.sum (graph.durations.take (place + 1)) = .ok left.elapsed := by
    cases lengths with
    | nil => cases whole
    | cons length lengths =>
      obtain ⟨firstLasts, _⟩ := List.cons.inj whole
      have started : first.duration = .int length := firstLasts
      rw [segmentDurations, List.map_cons, List.take_succ_cons, started, Value.sum_cons_int,
        ← started, ← List.map_take]
      exact passed
  refine ⟨left.video, rest[place].video, left.elapsed, offset, videoOp, summed, offsetGiven,
    videoGiven, ?_⟩
  rw [built.nodes_eq, grown]
  exact List.mem_append_right _ (List.mem_of_getElem? videoAt)

/-- Every join of a built graph starts where the timeline says. -/
theorem startsAsTimed (built : Built transition project graph assembly)
    (positive : (Value.int 0).lt project.fade.crossfade = .ok true) {index : Nat}
    (joined : 0 < index) (within : index < graph.durations.length) :
    graph.StartsAsTimed transition index := by
  obtain ⟨left, right, passed, offset, videoOp, summed, offsetGiven, videoGiven, present⟩ :=
    built.videoJoin_at joined within
  refine ⟨_, present, rfl, ⟨offset, ?_, ?_⟩, ?_⟩
  · rw [Timeline.transitionOffset_of_sum summed, built.crossfade_eq]
    exact offsetGiven
  · rw [Transition.videoOp_of_fades (Value.le_zero_of_positive positive)] at videoGiven
    rw [built.crossfade_eq, Except.ok.inj videoGiven]
    rfl
  · intro other otherIn same
    exact Graph.eq_of_key built.nodup_keys otherIn present (Node.label_eq_iff.mp same)

end Built

/-- In a built graph with a crossfade all joins start where the timeline says, and the total is
that of the timeline. Composing any segments in whole seconds tells the same. -/
theorem startsAsTimed_of_run_build (transition : Transition) :
    (∀ (existence : ExistenceCheck) (project : Project) (draft after : Draft) (graph : Graph),
        (build existence transition project).run draft = .ok graph after →
        (Value.int 0).lt project.fade.crossfade = .ok true →
        (∀ index : Nat, 0 < index → index < graph.durations.length →
          graph.StartsAsTimed transition index) ∧
        graph.crossfade = project.fade.crossfade ∧
        Timeline.total (.list graph.durations) graph.crossfade = .ok graph.total) ∧
      ∀ (crossfade : Int) (first : Segment) (rest : List Segment) (lengths : List Int)
        (draft : Draft), (first :: rest).map (·.duration) = lengths.map Value.int →
        ∃ final after,
          (Composite.compose (.int crossfade) transition (first :: rest)).run draft =
            .ok final after ∧
          Composite.Composed transition crossfade first rest lengths draft.graph after.graph
            final := by
  constructor
  · intro existence project draft after graph ran positive
    obtain ⟨assembly, built⟩ := built_of_run ran
    refine ⟨fun _ joined within => built.startsAsTimed positive joined within,
      built.crossfade_eq, ?_⟩
    rw [built.durations_eq, built.crossfade_eq]
    exact (checkTotal_eq_ok_iff.mp built.total).1
  · intro crossfade first rest lengths draft durations
    exact Composite.composed_of_whole transition crossfade durations draft

/-- Four cuts that fade over for a tenth of a second, and segments with indices of their own. -/
theorem startsAsTimed_sampleProject :
    let project := { sampleProject with
      cuts := sampleProject.cuts ++ sampleProject.cuts
      fade := ⟨.int 1, .int 2, .real (.ofRatio false 1 10)⟩ }
    let segments : List Segment := [⟨4, .int 5, 0, 1⟩, ⟨9, .int 7, 2, 3⟩]
    (∃ graph after, (build (fun _ _ => .ok true) .plain project).run {} = .ok graph after ∧
      graph.durations.length = 4 ∧ graph.StartsAsTimed .plain 3) ∧
    ∃ final after, (Composite.compose (.int 2) .plain segments).run {} = .ok final after ∧
      final.elapsed = .int 12 := by
  have succeeds : Drafting.succeeds (build (fun _ _ => .ok true) .plain { sampleProject with
      cuts := sampleProject.cuts ++ sampleProject.cuts
      fade := ⟨.int 1, .int 2, .real (.ofRatio false 1 10)⟩ }) {}
      (fun graph => graph.durations.length = 4) = true := by
    decide +kernel
  obtain ⟨graph, after, ran, count⟩ := exists_of_succeeds succeeds
  have four : graph.durations.length = 4 := of_decide_eq_true count
  constructor
  · have timed := (startsAsTimed_of_run_build .plain).1 _ _ _ after graph ran (by decide +kernel)
    exact ⟨graph, after, ran, four, timed.1 3 (by decide) (by rw [four]; decide)⟩
  · obtain ⟨final, after, composed, parts⟩ :=
      (startsAsTimed_of_run_build .plain).2 2 ⟨4, .int 5, 0, 1⟩ [⟨9, .int 7, 2, 3⟩] [5, 7] {} rfl
    exact ⟨final, after, composed, parts.elapsed⟩

end Compilation

end Montage
