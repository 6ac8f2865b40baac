import Montage.Proofs.NodeOrigins
import Montage.Proofs.SegmentOps
import Montage.Proofs.UncheckedNumbers

/-!
# Where the operations of a graph come from

Every operation of a built graph is one of a few: it starts time stamps anew, moves a sound, brings
a picture to the frame size, sets a volume, fades one end of the timeline, or adds up or joins what
other nodes give. Main statement: `Built.opOrigin`, which tells each with the values of the project
that it was made with.
-/

namespace Montage

open Drafting

/-! ## Fades -/

/-- A fade of one end of the timeline. -/
def fadeOp (kind : StreamKind) (direction : String) (start length : Value) : Op :=
  .of (if kind = .video then "fade" else "afade") []
    [("t", .text direction), ("st", start), ("d", length)]

/-- The lengths of the fades at both ends, each with its direction. -/
def FadeLengths.ends (fade : FadeLengths) : List (String × Value) :=
  [("in", fade.fadeIn), ("out", fade.fadeOut)]

/-- The fades that are written: those whose length does not count as nothing. -/
inductive FadeLengths.Gives (fade : FadeLengths) : Op → Prop
  | intro {kind : StreamKind} {direction : String} {start length : Value} :
      (direction, length) ∈ fade.ends → length.le (.int 0) = .ok false →
      start.number? ≠ Option.none → Gives fade (fadeOp kind direction start length)

theorem Value.number?_of_number {value : Value} {x : Number} (counted : value.number = .ok x) :
    value.number? ≠ none := by
  rw [number_eq_ok_iff.mp counted]
  exact Option.some_ne_none x

theorem Value.number?_of_le {value other : Value} {result : Bool}
    (compared : value.le other = .ok result) : value.number? ≠ none := by
  obtain ⟨_, counted, _⟩ := except_bind_eq_ok_iff.mp compared
  exact number?_of_number counted

/-- The greater of zero and a number is a number. -/
theorem Value.number?_of_max {value greater : Value} (isNumber : value.number? ≠ none)
    (given : Value.max (.int 0) value = .ok greater) : greater.number? ≠ none := by
  obtain ⟨less, _, given⟩ := except_bind_eq_ok_iff.mp given
  obtain rfl := except_pure_eq_ok_iff.mp given
  cases less with
  | true => exact isNumber
  | false => exact nofun

theorem Effect.fadeOp_of_mem_fadeOps {kind : StreamKind} {duration length : Value}
    {direction : String} {ops : List Op} {op : Op}
    (given : fadeOps kind duration length (.text direction) = .ok ops) (present : op ∈ ops) :
    length.le (.int 0) = .ok false ∧
      ∃ start : Value, start.number? ≠ none ∧ op = fadeOp kind direction start length := by
  obtain ⟨nothing, compared, given⟩ := except_bind_eq_ok_iff.mp given
  cases nothing with
  | true =>
    obtain rfl := except_pure_eq_ok_iff.mp given
    cases present
  | false =>
    refine ⟨compared, ?_⟩
    rw [if_neg Bool.false_ne_true] at given
    dsimp only at given
    split at given
    · obtain rfl := except_pure_eq_ok_iff.mp given
      exact ⟨.int 0, nofun, List.mem_singleton.mp present⟩
    · obtain ⟨left, taken, given⟩ := except_bind_eq_ok_iff.mp given
      obtain ⟨start, greater, given⟩ := except_bind_eq_ok_iff.mp given
      obtain rfl := except_pure_eq_ok_iff.mp given
      obtain ⟨_, counted⟩ := Value.number_of_sub taken
      exact ⟨start, Value.number?_of_max (Value.number?_of_number counted) greater,
        List.mem_singleton.mp present⟩

/-! ## Segments -/

namespace SegmentStyle

variable {style : SegmentStyle} {cut : CutInputs} {total : Int} {ops : List Op} {op : Op}

theorem gives_of_mem_edgeFade {kind : StreamKind} {duration length : Value} {direction : String}
    (edge : (direction, length) ∈ style.fade.ends)
    (given : edgeFade kind duration length direction = .ok ops) (present : op ∈ ops) :
    style.fade.Gives op := by
  unfold edgeFade at given
  rw [EffectRegistry.standard_apply_fade, liftM_defect_eq_ok_iff] at given
  obtain ⟨some_length, start, isNumber, rfl⟩ := Effect.fadeOp_of_mem_fadeOps given present
  exact .intro edge some_length isNumber

theorem gives_of_mem_edgeFades {kind : StreamKind} {duration : Value} {index : Int}
    (given : style.edgeFades kind duration index total = .ok ops) (present : op ∈ ops) :
    style.fade.Gives op := by
  rw [edgeFades_eq] at given
  obtain ⟨first, firstGiven, given⟩ := except_bind_eq_ok_iff.mp given
  obtain ⟨last, lastGiven, given⟩ := except_bind_eq_ok_iff.mp given
  obtain rfl := except_pure_eq_ok_iff.mp given
  rcases List.mem_append.mp present with inFirst | inLast
  · split at firstGiven
    · exact gives_of_mem_edgeFade (.head _) firstGiven inFirst
    · rw [← except_pure_eq_ok_iff.mp firstGiven] at inFirst
      cases inFirst
  · split at lastGiven
    · exact gives_of_mem_edgeFade (.tail _ (.head _)) lastGiven inLast
    · rw [← except_pure_eq_ok_iff.mp lastGiven] at inLast
      cases inLast

theorem of_mem_frameOps {duration : Value} (given : style.frameOps duration = .ok ops)
    (present : op ∈ ops) :
    ∃ width height, style.frame = [width, height] ∧ op ∈ Effect.letterboxOps width height := by
  unfold frameOps at given
  split at given
  · cases given
    cases present
  · next width height framed =>
    rw [EffectRegistry.standard_apply_letterbox] at given
    cases given
    exact ⟨width, height, framed, present⟩
  · cases given

end SegmentStyle

theorem offsetChain_cases {offset : Int} {op : Op} (present : op ∈ offsetChain offset) :
    op = .of "atrim" [] [("start", .int offset.natAbs)] ∨ op = resetTimestamps "asetpts" ∨
      op = .of "areverse" [] [] ∨ op = .of "apad" [] [("pad_dur", .int offset)] := by
  unfold offsetChain at present
  split at present
  · rcases List.mem_cons.mp present with rfl | later
    · exact .inl rfl
    · exact .inr (.inl (List.mem_singleton.mp later))
  · split at present
    · simp only [List.mem_cons, List.not_mem_nil, or_false] at present
      rcases present with rfl | rfl | rfl
      · exact .inr (.inr (.inl rfl))
      · exact .inr (.inr (.inr rfl))
      · exact .inr (.inr (.inl rfl))
    · cases present

/-! ## Joins -/

namespace Transition

variable {transition : Transition} {crossfade offset : Value} {op : Op}

/-- Two pictures are put end to end where the crossfade counts as nothing, else they fade over. -/
theorem videoOp_cases (given : transition.videoOp crossfade offset = .ok op) :
    op = .of "concat" [] [("n", .int 2), ("v", .int 1), ("a", .int 0)] ∨
      crossfade.le (.int 0) = .ok false ∧ op = .of "xfade" []
        [("transition", .text transition.name), ("duration", crossfade), ("offset", offset)] := by
  obtain ⟨nothing, compared, given⟩ := except_bind_eq_ok_iff.mp given
  cases nothing with
  | true => exact .inl (except_pure_eq_ok_iff.mp given).symm
  | false => exact .inr ⟨compared, (except_pure_eq_ok_iff.mp given).symm⟩

theorem audioOp_cases (given : audioOp crossfade = .ok op) :
    op = .of "concat" [] [("n", .int 2), ("v", .int 0), ("a", .int 1)] ∨
      crossfade.le (.int 0) = .ok false ∧ op = .of "acrossfade" [] [("d", crossfade)] := by
  obtain ⟨nothing, compared, given⟩ := except_bind_eq_ok_iff.mp given
  cases nothing with
  | true => exact .inl (except_pure_eq_ok_iff.mp given).symm
  | false => exact .inr ⟨compared, (except_pure_eq_ok_iff.mp given).symm⟩

end Transition

/-! ## The whole graph -/

/-- The operations that a project and a transition lead to. -/
inductive OpOrigin (project : Project) (transition : Transition) : Op → Prop
  | reset {name : String} : name ∈ ["setpts", "asetpts"] →
      OpOrigin project transition (resetTimestamps name)
  | shift {offset : Int} {op : Op} : op ∈ offsetChain offset → OpOrigin project transition op
  | frame {width height : Value} {op : Op} : project.frame = [width, height] →
      op ∈ Effect.letterboxOps width height → OpOrigin project transition op
  | volume {cut : Cut} {volume : Value} {op : Op} : cut ∈ project.cuts → volume ∈ cut.volumes →
      op ∈ Effect.volumeOps volume → OpOrigin project transition op
  | fade {op : Op} : project.fade.Gives op → OpOrigin project transition op
  | mix {index : Int} {sounds : List Nat} {op : Op} : op ∈ (Segment.mixNode index sounds).ops →
      OpOrigin project transition op
  | picture {offset : Value} {op : Op} : offset.number? ≠ none →
      transition.videoOp project.fade.crossfade offset = .ok op → OpOrigin project transition op
  | sound {op : Op} : Transition.audioOp project.fade.crossfade = .ok op →
      OpOrigin project transition op

namespace CutInputs

variable {base : Path} {index slot : Nat}

theorem TracksResolved.volumes_eq {number : Nat} {start duration : Int} {tracks : List AudioTrack}
    {entries : List (Window × Int × Value)}
    (resolved : TracksResolved base index start duration number tracks entries) :
    entries.map (·.2.2) = tracks.map (·.volume) := by
  induction resolved with
  | nil => rfl
  | cons first _ ih => rw [List.map_cons, List.map_cons, ih, first.volume]

theorem CutResolved.volumes_eq {cut : Cut} {start duration : Int} {windows : List Window}
    {inputs : CutInputs}
    (resolved : CutResolved base index slot cut start duration windows inputs) :
    inputs.volumes = cut.volumes := by
  obtain ⟨_, entries, _, tracks, _, rfl⟩ := resolved.rest
  exact congrArg (cut.video.volume :: ·) tracks.volumes_eq

theorem CutsResolved.volumes_of_mem {cuts : List Cut} {windows : List Window}
    {inputs : List CutInputs} {input : CutInputs}
    (resolved : CutsResolved base index slot cuts windows inputs) (present : input ∈ inputs) :
    ∃ cut ∈ cuts, input.volumes = cut.volumes := by
  induction resolved with
  | nil => cases present
  | @cons _ _ cut _ _ _ _ cuts _ _ first _ ih =>
    rcases List.mem_cons.mp present with rfl | later
    · exact ⟨cut, List.mem_cons_self, first.volumes_eq⟩
    · obtain ⟨found, foundIn, same⟩ := ih later
      exact ⟨found, List.mem_cons_of_mem cut foundIn, same⟩

end CutInputs

namespace SegmentStyle.Draws

variable {project : Project} {transition : Transition} {total : Int} {input : CutInputs}
  {node : Node} {op : Op}

theorem opOrigin (drawn : (ofProject project).Draws total input node)
    (volumes : ∃ cut ∈ project.cuts, input.volumes = cut.volumes) (present : op ∈ node.ops) :
    OpOrigin project transition op := by
  obtain ⟨cut, cutIn, sameVolumes⟩ := volumes
  cases drawn with
  | picture given =>
    obtain ⟨frame, frameGiven, given⟩ := except_bind_eq_ok_iff.mp given
    obtain ⟨fades, fadesGiven, given⟩ := except_bind_eq_ok_iff.mp given
    obtain rfl := except_pure_eq_ok_iff.mp given
    rcases List.mem_cons.mp present with rfl | later
    · exact .reset (.head _)
    · rcases List.mem_append.mp later with inFrame | inFades
      · obtain ⟨width, height, framed, boxed⟩ := of_mem_frameOps frameGiven inFrame
        exact .frame framed boxed
      · exact .fade (gives_of_mem_edgeFades fadesGiven inFades)
  | sound _ _ volumeAt given =>
    obtain ⟨shift, shiftGiven, given⟩ := except_bind_eq_ok_iff.mp given
    obtain ⟨gain, gainGiven, given⟩ := except_bind_eq_ok_iff.mp given
    obtain ⟨fades, fadesGiven, given⟩ := except_bind_eq_ok_iff.mp given
    obtain rfl := except_pure_eq_ok_iff.mp given
    rw [EffectRegistry.standard_apply_audioOffset] at shiftGiven
    rw [EffectRegistry.standard_apply_volume] at gainGiven
    cases shiftGiven
    cases gainGiven
    rcases List.mem_cons.mp present with rfl | later
    · exact .reset (.tail _ (.head _))
    · rcases List.mem_append.mp later with before | inFades
      · rcases List.mem_append.mp before with inShift | inGain
        · exact .shift inShift
        · have listed := List.mem_of_getElem? volumeAt
          rw [sameVolumes] at listed
          exact .volume cutIn listed inGain
      · exact .fade (gives_of_mem_edgeFades fadesGiven inFades)
  | mix sounds => exact .mix present

end SegmentStyle.Draws

theorem Value.number?_of_lessMultiple {value step rest : Value} {count : Int}
    (given : value.lessMultiple step count = .ok rest) : rest.number? ≠ none := by
  obtain ⟨_, _, given⟩ := except_bind_eq_ok_iff.mp given
  obtain ⟨_, _, given⟩ := except_bind_eq_ok_iff.mp given
  obtain ⟨left, _, given⟩ := except_bind_eq_ok_iff.mp given
  obtain rfl := except_pure_eq_ok_iff.mp given
  exact number?_of_number (number_ofNumber left)

theorem Composite.Joins.opOrigin {project : Project} {transition : Transition} {node : Node}
    {op : Op} (joins : Joins project.fade.crossfade transition node) (present : op ∈ node.ops) :
    OpOrigin project transition op := by
  cases joins with
  | picture offsetGiven given =>
    rw [List.mem_singleton.mp present]
    exact .picture (Value.number?_of_lessMultiple offsetGiven) given
  | sound given =>
    rw [List.mem_singleton.mp present]
    exact .sound given

/-- Every operation of a built graph is one that the project and the transition lead to. -/
theorem Compilation.Built.opOrigin {transition : Transition} {project : Project} {graph : Graph}
    {assembly : Assembly} (built : Built transition project graph assembly) {node : Node} {op : Op}
    (present : node ∈ graph.nodes) (inNode : op ∈ node.ops) : OpOrigin project transition op := by
  cases built.origin present with
  | inl drawing =>
    obtain ⟨cut, cutIn, drawn⟩ := drawing
    exact drawn.opOrigin (built.resolved.volumes_of_mem cutIn) inNode
  | inr joins => exact joins.opOrigin inNode

end Montage
