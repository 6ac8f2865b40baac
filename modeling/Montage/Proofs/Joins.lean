import Mathlib.Algebra.Ring.Int.Defs
import Montage.Proofs.Assembly

/-!
# What joining adds

Joining segments adds two nodes for each of them, the picture and then the sound, and changes no
node that is there already (`Composite.Joined`). Main statements: `joined_of_run_joinAll` says that
joining adds just these nodes; `Joined.nodesAt` gives the two nodes of a segment at its place,
`Joined.videoAt_of_whole` the second at which its picture starts, and `Joined.ends` what is left in
the end.
-/

namespace Montage

namespace Composite

/-- The nodes that join segments to a composite, numbered from `position` on. -/
inductive Joined (crossfade : Value) (transition : Transition) :
    (position : Nat) → (state : Composite) → List Segment → List Node → (final : Composite) → Prop
  | nil {position : Nat} {state : Composite} : Joined crossfade transition position state [] [] state
  | cons {position : Nat} {state final : Composite} {segment : Segment} {segments : List Segment}
      {offset elapsed : Value} {videoOp audioOp : Op} {nodes : List Node} :
      state.elapsed.lessMultiple crossfade segment.index = .ok offset →
      transition.videoOp crossfade offset = .ok videoOp →
      Transition.audioOp crossfade = .ok audioOp →
      state.elapsed.add segment.duration = .ok elapsed →
      Joined crossfade transition (position + 2) ⟨position, position + 1, elapsed⟩ segments nodes
        final →
      Joined crossfade transition position state (segment :: segments)
        (joinNode .videoJoin .video segment.index state.video segment.video videoOp ::
          joinNode .audioJoin .audio segment.index state.audio segment.audio audioOp :: nodes)
        final

variable {crossfade : Value} {transition : Transition} {state final : Composite}
  {draft after : Draft} {segments : List Segment} {position : Nat} {nodes : List Node}

theorem joined_of_run_joinAll
    (joined : (joinAll crossfade transition state segments).run draft = .ok final after) :
    ∃ nodes, after.graph = { draft.graph with nodes := draft.graph.nodes ++ nodes } ∧
      Joined crossfade transition draft.graph.nodes.length state segments nodes final := by
  induction segments generalizing state draft with
  | nil =>
    obtain ⟨rfl, rfl⟩ := of_run_joinAll_nil joined
    exact ⟨[], by rw [List.append_nil], .nil⟩
  | cons segment segments ih =>
    obtain ⟨next, middle, one, more⟩ := steps_of_run_joinAll joined
    obtain ⟨offset, videoOp, audioOp, elapsed, offsetGiven, videoGiven, audioGiven, elapsedGiven,
      pushed, rfl⟩ := push_of_run_join one
    obtain ⟨nodes, grown, rest⟩ := ih more
    have count : middle.graph.nodes.length = draft.graph.nodes.length + 2 := by
      rw [pushed]
      simp
    rw [count] at rest
    refine ⟨_, ?_, .cons offsetGiven videoGiven audioGiven elapsedGiven rest⟩
    rw [grown, pushed]
    simp [Graph.push]

/-- The picture and the sound that are left after some joins to those given, the nodes of the joins
being numbered from `position` on. -/
def outputsAfter (given : Nat × Nat) (position : Nat) : (joins : Nat) → Nat × Nat
  | 0 => given
  | joins + 1 => (position + 2 * joins, position + 2 * joins + 1)

/-- What comes after the first join goes on from its two nodes. -/
theorem outputsAfter_succ (given : Nat × Nat) (position joins : Nat) :
    outputsAfter (position, position + 1) (position + 2) joins =
      outputsAfter given position (joins + 1) := by
  cases joins with
  | zero => rfl
  | succ joins =>
    have next : position + 2 + 2 * joins = position + 2 * (joins + 1) := by omega
    rw [outputsAfter, outputsAfter, next]

/-- The two nodes of a segment stand at its place. They join it to what has been composed of the
segments before it, which last as long as these together. -/
theorem Joined.nodesAt {place : Nat} {segment : Segment}
    (joined : Joined crossfade transition position state segments nodes final)
    (found : segments[place]? = some segment) :
    ∃ (left : Composite) (offset : Value) (videoOp audioOp : Op),
      ((segments.take place).map (·.duration)).foldlM Value.add state.elapsed =
        .ok left.elapsed ∧
      left.elapsed.lessMultiple crossfade segment.index = .ok offset ∧
      transition.videoOp crossfade offset = .ok videoOp ∧
      Transition.audioOp crossfade = .ok audioOp ∧
      nodes[2 * place]? =
        some (joinNode .videoJoin .video segment.index left.video segment.video videoOp) ∧
      nodes[2 * place + 1]? =
        some (joinNode .audioJoin .audio segment.index left.audio segment.audio audioOp) ∧
      (left.video, left.audio) = outputsAfter (state.video, state.audio) position place := by
  induction joined generalizing place with
  | nil => simp at found
  | @cons _ state _ head segments offset elapsed videoOp audioOp nodes offsetGiven videoGiven
      audioGiven elapsedGiven _ ih =>
    cases place with
    | zero =>
      obtain rfl : head = segment := by simpa using found
      exact ⟨state, offset, videoOp, audioOp, rfl, offsetGiven, videoGiven, audioGiven, rfl, rfl,
        rfl⟩
    | succ place =>
      obtain ⟨left, offset, videoOp, audioOp, summed, rest⟩ := ih (by simpa using found)
      rw [outputsAfter_succ (state.video, state.audio)] at rest
      refine ⟨left, offset, videoOp, audioOp, ?_, ?_⟩
      · rw [List.take_succ_cons, List.map_cons, List.foldlM_cons, elapsedGiven]
        exact summed
      · rw [Nat.mul_succ]
        exact rest

/-- Two nodes are added for each segment, and what is left in the end are those of the last join,
with all lengths added up. -/
theorem Joined.ends (joined : Joined crossfade transition position state segments nodes final) :
    nodes.length = 2 * segments.length ∧
      (final.video, final.audio) =
        outputsAfter (state.video, state.audio) position segments.length ∧
      (segments.map (·.duration)).foldlM Value.add state.elapsed = .ok final.elapsed := by
  induction joined with
  | nil => exact ⟨rfl, rfl, rfl⟩
  | @cons _ state _ _ segments _ elapsed _ _ _ _ _ _ elapsedGiven _ ih =>
    obtain ⟨count, outputs, summed⟩ := ih
    refine ⟨?_, ?_, ?_⟩
    · rw [List.length_cons, List.length_cons, List.length_cons, count]
      omega
    · rw [outputs, outputsAfter_succ (state.video, state.audio), List.length_cons]
    · rw [List.map_cons, List.foldlM_cons, elapsedGiven]
      exact summed

/-- With all lengths in whole seconds a join starts when the segments before it have passed, less
one crossfade for every join up to it. -/
theorem Joined.videoAt_of_whole {fade start : Int} {lengths : List Int} {place : Nat}
    {segment : Segment}
    (joined : Joined (.int fade) transition position state segments nodes final)
    (started : state.elapsed = .int start)
    (durations : segments.map (·.duration) = lengths.map Value.int)
    (found : segments[place]? = some segment) :
    ∃ left videoOp,
      nodes[2 * place]? =
        some (joinNode .videoJoin .video segment.index left segment.video videoOp) ∧
      transition.videoOp (.int fade)
        (.int (start + (lengths.take place).sum - fade * segment.index)) = .ok videoOp ∧
      left = (outputsAfter (state.video, state.audio) position place).1 := by
  obtain ⟨left, offset, videoOp, _, summed, offsetGiven, videoGiven, _, videoAt, _, leftIs⟩ :=
    joined.nodesAt found
  rw [List.map_take, durations, ← List.map_take, started, Value.foldlM_add_int] at summed
  have elapsed : left.elapsed = .int (start + (lengths.take place).sum) := by
    rw [← Except.ok.inj summed, ← List.sum_cons, List.sum_eq_foldl, List.foldl_cons,
      Int.zero_add]
  rw [elapsed, Value.lessMultiple_int] at offsetGiven
  obtain rfl := Except.ok.inj offsetGiven
  exact ⟨left.video, videoOp, videoAt, videoGiven, congrArg Prod.fst leftIs⟩

end Composite

end Montage
