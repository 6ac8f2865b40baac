import Montage.Proofs.LocalEdits
import Montage.Proofs.OpOrigins

/-!
# The fades at the ends of the timeline

Only the first cut fades in and only the last one fades out, in its picture and in each of its
sounds. These fades are the last operations of their nodes, whatever comes before them: the frame
size of a picture, the offset and the volume of a sound. Mixes and joins never fade an end. The
fade-out starts at a second of its own cut; on the timeline it ends with the whole. Main statement:
`edgesFade_of_run_build`.
-/

namespace Montage

open Drafting

/-! ## The operations -/

/-- The names of the operations that fade an end. -/
def Op.edgeFadeNames : List String := ["fade", "afade"]

/-- Whether an operation fades an end in some direction. -/
def Op.fadesEdge (direction : String) (op : Op) : Bool :=
  edgeFadeNames.contains op.name && op.param (some "t") .null == .text direction

/-- The operations that bring pictures to a frame size, none where they keep their size. -/
def Effect.frameChain : (frame : List Value) → List Op
  | [width, height] =>
    [.of "scale" [width, height] [("force_original_aspect_ratio", .text "decrease")],
      .of "pad" [width, height, .text "(ow-iw)/2", .text "(oh-ih)/2"] [],
      .of "setsar" [.int 1] []]
  | _ => []

/-- The fades of one of `count` cuts. -/
def edgeFadeOps (kind : StreamKind) (fadeIn fadeOut length : Int) (index count : Nat) : List Op :=
  (if index = 0 ∧ 0 < fadeIn then [fadeOp kind "in" (.int 0) (.int fadeIn)] else []) ++
    (if index + 1 = count ∧ 0 < fadeOut then
      [fadeOp kind "out" (.int (max 0 (length - fadeOut))) (.int fadeOut)] else [])

section Operations

variable {kind : StreamKind} {fadeIn fadeOut length : Int} {index count : Nat} {ops : List Op}

theorem Op.countP_fadesEdge_of_other (other : ∀ op ∈ ops, op.name ∉ edgeFadeNames)
    (direction : String) : ops.countP (fadesEdge direction) = 0 := by
  refine List.countP_eq_zero.mpr fun op present fades => ?_
  exact other op present (List.contains_iff_mem.mp (Bool.and_eq_true_iff.mp fades).1)

theorem fadesEdge_fadeOp (kind : StreamKind) (direction : String) (start length : Value)
    (expected : String) :
    (fadeOp kind direction start length).fadesEdge expected = decide (direction = expected) := by
  have named : Op.edgeFadeNames.contains (fadeOp kind direction start length).name = true := by
    unfold fadeOp
    split <;> rfl
  have directed : (fadeOp kind direction start length).param (some "t") .null = .text direction :=
    rfl
  rw [Op.fadesEdge, named, directed, Bool.true_and, Bool.eq_iff_iff, beq_iff_eq, decide_eq_true_iff,
    Value.text.injEq]

theorem countP_fadesEdge_in : (edgeFadeOps kind fadeIn fadeOut length index count).countP
    (Op.fadesEdge "in") = if index = 0 ∧ 0 < fadeIn then 1 else 0 := by
  unfold edgeFadeOps
  split_ifs <;> simp [fadesEdge_fadeOp]

theorem countP_fadesEdge_out : (edgeFadeOps kind fadeIn fadeOut length index count).countP
    (Op.fadesEdge "out") = if index + 1 = count ∧ 0 < fadeOut then 1 else 0 := by
  unfold edgeFadeOps
  split_ifs <;> simp [fadesEdge_fadeOp]

theorem Effect.frameChain_other (frame : List Value) :
    ∀ op ∈ frameChain frame, op.name ∉ Op.edgeFadeNames := by
  unfold frameChain
  split
  · intro op present
    simp only [List.mem_cons, List.not_mem_nil, or_false] at present
    rcases present with rfl | rfl | rfl <;> exact of_decide_eq_false rfl
  · intro op present
    cases present

theorem offsetChain_other (offset : Int) :
    ∀ op ∈ offsetChain offset, op.name ∉ Op.edgeFadeNames := by
  intro op present
  rcases offsetChain_cases present with rfl | rfl | rfl | rfl <;> exact of_decide_eq_false rfl

theorem Value.max_int (m n : Int) : Value.max (.int m) (.int n) = .ok (.int (Max.max m n)) := by
  rw [Value.max, lt_int]
  by_cases less : m < n
  · rw [decide_eq_true less, Int.max_eq_right (Int.le_of_lt less)]
    rfl
  · rw [decide_eq_false less, Int.max_eq_left (Int.not_lt.mp less)]
    rfl

namespace Effect

theorem fadeOps_in (kind : StreamKind) (duration : Value) (length : Int) :
    fadeOps kind duration (.int length) (.text "in") =
      .ok (if 0 < length then [fadeOp kind "in" (.int 0) (.int length)] else []) := by
  rw [fadeOps, Value.le_int]
  by_cases some_length : 0 < length
  · rw [if_pos some_length, decide_eq_false (Int.not_le.mpr some_length)]
    rfl
  · rw [if_neg some_length, decide_eq_true (Int.not_lt.mp some_length)]
    rfl

theorem fadeOps_out (kind : StreamKind) (duration length : Int) :
    fadeOps kind (.int duration) (.int length) (.text "out") =
      .ok (if 0 < length then
        [fadeOp kind "out" (.int (max 0 (duration - length))) (.int length)] else []) := by
  rw [fadeOps, Value.le_int]
  by_cases some_length : 0 < length
  · rw [if_pos some_length, decide_eq_false (Int.not_le.mpr some_length)]
    show (Value.max (.int 0) (.int (duration - length)) >>= fun start =>
      pure [fadeOp kind "out" start (.int length)]) = _
    rw [Value.max_int]
    rfl
  · rw [if_neg some_length, decide_eq_true (Int.not_lt.mp some_length)]
    rfl

end Effect

end Operations

/-! ## Segments -/

namespace SegmentStyle

variable {style : SegmentStyle} {cut : CutInputs} {fadeIn fadeOut length : Int} {index count : Nat}
  {ops : List Op}

theorem edgeFades_of_whole (opens : style.fade.fadeIn = .int fadeIn)
    (closes : style.fade.fadeOut = .int fadeOut) (kind : StreamKind) :
    style.edgeFades kind (.int length) index count =
      .ok (edgeFadeOps kind fadeIn fadeOut length index count) := by
  have first : edgeFade kind (.int length) style.fade.fadeIn "in" =
      .ok (if 0 < fadeIn then [fadeOp kind "in" (.int 0) (.int fadeIn)] else []) := by
    rw [edgeFade, EffectRegistry.standard_apply_fade, liftM_defect_eq_ok_iff, opens]
    exact Effect.fadeOps_in kind _ fadeIn
  have last : edgeFade kind (.int length) style.fade.fadeOut "out" =
      .ok (if 0 < fadeOut then
        [fadeOp kind "out" (.int (max 0 (length - fadeOut))) (.int fadeOut)] else []) := by
    rw [edgeFade, EffectRegistry.standard_apply_fade, liftM_defect_eq_ok_iff, closes]
    exact Effect.fadeOps_out kind length fadeOut
  have isFirst : (index : Int) = 0 ↔ index = 0 := Int.natCast_eq_zero
  have isLast : (index : Int) = count - 1 ↔ index + 1 = count := by omega
  rw [edgeFades_eq, first, last]
  simp only [isFirst, isLast, edgeFadeOps, ite_and]
  split_ifs <;> rfl

theorem frameOps_eq {duration : Value} (given : style.frameOps duration = .ok ops) :
    ops = Effect.frameChain style.frame := by
  unfold frameOps at given
  split at given
  · next unframed => rw [unframed, ← Except.ok.inj given, Effect.frameChain]; exact nofun
  · next width height framed =>
    rw [EffectRegistry.standard_apply_letterbox] at given
    rw [framed, ← Except.ok.inj given]
    rfl
  · cases given

theorem videoOps_of_whole (opens : style.fade.fadeIn = .int fadeIn)
    (closes : style.fade.fadeOut = .int fadeOut) (lasts : cut.duration = .int length)
    (placed : cut.index = index) (given : style.videoOps cut count = .ok ops) :
    ops = .of "setpts" [.text "PTS-STARTPTS"] [] :: (Effect.frameChain style.frame ++
      edgeFadeOps .video fadeIn fadeOut length index count) := by
  obtain ⟨frame, frameGiven, given⟩ := except_bind_eq_ok_iff.mp given
  obtain ⟨fades, fadesGiven, given⟩ := except_bind_eq_ok_iff.mp given
  rw [lasts, placed, edgeFades_of_whole opens closes] at fadesGiven
  rw [← except_pure_eq_ok_iff.mp given, frameOps_eq frameGiven, Except.ok.inj fadesGiven]
  rfl

theorem audioOps_of_whole {offset : Int} {volume : Value} (opens : style.fade.fadeIn = .int fadeIn)
    (closes : style.fade.fadeOut = .int fadeOut) (lasts : cut.duration = .int length)
    (placed : cut.index = index) (given : style.audioOps cut count offset volume = .ok ops) :
    ops = .of "asetpts" [.text "PTS-STARTPTS"] [] ::
      (offsetChain offset ++ [.of "volume" [volume] []] ++
        edgeFadeOps .audio fadeIn fadeOut length index count) := by
  obtain ⟨shift, shiftGiven, given⟩ := except_bind_eq_ok_iff.mp given
  obtain ⟨gain, gainGiven, given⟩ := except_bind_eq_ok_iff.mp given
  obtain ⟨fades, fadesGiven, given⟩ := except_bind_eq_ok_iff.mp given
  rw [EffectRegistry.standard_apply_audioOffset] at shiftGiven
  rw [EffectRegistry.standard_apply_volume] at gainGiven
  rw [lasts, placed, edgeFades_of_whole opens closes] at fadesGiven
  rw [← except_pure_eq_ok_iff.mp given, ← Except.ok.inj shiftGiven, ← Except.ok.inj gainGiven,
    Except.ok.inj fadesGiven]
  rfl

end SegmentStyle

/-! ## Built graphs -/

/-- Whether a node is the picture or a sound of a cut. -/
def Node.drawsCut (node : Node) (index : Nat) : Prop :=
  (node.role = .segmentVideo ∨ node.role = .segmentAudio) ∧ node.index = index

instance (node : Node) (index : Nat) : Decidable (node.drawsCut index) :=
  inferInstanceAs (Decidable (_ ∧ _))

theorem Node.drawsCut_iff {node : Node} {index : Nat} (drawn : node.drawsCut index) (other : Nat) :
    node.drawsCut other ↔ index = other := by
  rw [drawsCut, and_iff_right drawn.1, drawn.2, Int.natCast_inj]

/-- How the ends of a timeline fade whose cuts have some lengths. -/
structure Graph.EdgesFade (graph : Graph) (frame : List Value) (fadeIn fadeOut crossfade : Int)
    (lengths : List Int) : Prop where
  /-- Pictures are all brought to the same size, and their fades come last. -/
  pictures : ∀ node ∈ graph.nodes, node.role = .segmentVideo →
    ∃ (index : Nat) (length : Int), node.index = index ∧ lengths[index]? = some length ∧
      node.ops = .of "setpts" [.text "PTS-STARTPTS"] [] :: (Effect.frameChain frame ++
        edgeFadeOps .video fadeIn fadeOut length index lengths.length)
  /-- Sounds are moved and get their volume, and their fades come last. -/
  sounds : ∀ node ∈ graph.nodes, node.role = .segmentAudio →
    ∃ (index : Nat) (length offset : Int) (volume : Value), node.index = index ∧
      lengths[index]? = some length ∧
      node.ops = .of "asetpts" [.text "PTS-STARTPTS"] [] ::
        (offsetChain offset ++ [.of "volume" [volume] []] ++
          edgeFadeOps .audio fadeIn fadeOut length index lengths.length)
  /-- Just the nodes of the first cut fade in, once each. -/
  opens : ∀ node ∈ graph.nodes, node.ops.countP (Op.fadesEdge "in") =
    if node.drawsCut 0 ∧ 0 < fadeIn then 1 else 0
  /-- Just the nodes of the last cut fade out, once each. -/
  closes : ∀ node ∈ graph.nodes, node.ops.countP (Op.fadesEdge "out") =
    if node.drawsCut (lengths.length - 1) ∧ 0 < fadeOut then 1 else 0
  /-- Where the last cut is long enough, its fade-out ends when the timeline does. -/
  ends : ∃ last start : Int, lengths[lengths.length - 1]? = some last ∧
    Timeline.transitionOffset (.list graph.durations) (.int crossfade)
      (.int (lengths.length - 1)) = .ok (.int start) ∧
    (fadeOut ≤ last → graph.total = .int (start + max 0 (last - fadeOut) + fadeOut))

/-- Whether no operation of a node fades an end. -/
def Node.keepsEdges (node : Node) : Prop :=
  ∀ op ∈ node.ops, op.name ∉ Op.edgeFadeNames

/-- What a join adds is no end of the timeline. -/
theorem Composite.Joins.keepsEdges {crossfade : Value} {transition : Transition} {node : Node}
    (joins : Joins crossfade transition node) : node.keepsEdges := by
  cases joins with
  | picture _ given =>
    intro op present
    rw [List.mem_singleton.mp present]
    rcases Transition.videoOp_cases given with rfl | ⟨-, rfl⟩ <;> exact of_decide_eq_false rfl
  | sound given =>
    intro op present
    rw [List.mem_singleton.mp present]
    rcases Transition.audioOp_cases given with rfl | ⟨-, rfl⟩ <;> exact of_decide_eq_false rfl

theorem Segment.keepsEdges_mixNode (index : Int) (sounds : List Nat) :
    (mixNode index sounds).keepsEdges := by
  intro op present
  rw [List.mem_singleton.mp present]
  exact of_decide_eq_false rfl

/-- The timeline takes a join of cuts in whole seconds where it starts. -/
theorem Timeline.transitionOffset_int (lengths : List Int) (crossfade : Int) (index : Nat) :
    transitionOffset (.list (lengths.map Value.int)) (.int crossfade) (.int index) =
      .ok (.int (joinStart crossfade lengths index)) := by
  have passed : Value.sum ((lengths.map Value.int).take index) =
      .ok (.int (lengths.take index).sum) := by
    rw [← List.map_take, Value.sum_int, List.sum_eq_foldl]
  rw [transitionOffset_of_sum passed, Value.lessMultiple_int, joinStart]

open Timeline

namespace Compilation.Built

variable {transition : Transition} {project : Project} {graph : Graph} {assembly : Assembly}
  {lengths : List Int} {fadeIn fadeOut crossfade : Int} {node : Node}

/-- The cuts stand at their indices and have the lengths there. -/
theorem cutPlaced (built : Built transition project graph assembly)
    (durations : graph.durations = lengths.map Value.int) {cut : CutInputs}
    (present : cut ∈ assembly.cuts) :
    ∃ (index : Nat) (length : Int), cut.index = index ∧ lengths[index]? = some length ∧
      cut.duration = .int length := by
  obtain ⟨index, cutAt⟩ := List.mem_iff_getElem?.mp present
  have within : index < assembly.cuts.length := (List.getElem?_eq_some_iff.mp cutAt).1
  have indexAt := congrArg (·[index]?) built.resolved.indices_eq
  simp only [List.getElem?_map, cutAt, Option.map_some, List.getElem?_range' within] at indexAt
  have durationAt : graph.durations[index]? = some cut.duration := by
    rw [built.durations_eq, List.getElem?_map, cutAt, Option.map_some]
  rw [durations, List.getElem?_map] at durationAt
  obtain ⟨length, lengthAt, lasts⟩ := Option.map_eq_some_iff.mp durationAt
  refine ⟨index, length, ?_, lengthAt, lasts.symm⟩
  rw [Option.some.inj indexAt, Nat.zero_add, Nat.one_mul]

theorem lengths_length (built : Built transition project graph assembly)
    (durations : graph.durations = lengths.map Value.int) :
    assembly.cuts.length = lengths.length := by
  have count := congrArg List.length (built.durations_eq.symm.trans durations)
  rwa [List.length_map, List.length_map] at count

theorem lengths_ne_zero (built : Built transition project graph assembly)
    (durations : graph.durations = lengths.map Value.int) : lengths.length ≠ 0 := by
  obtain ⟨first, rest, split, _⟩ := Composite.steps_of_run_compose built.joins
  rw [← built.lengths_length durations, ← built.segments_length, split]
  exact Nat.succ_ne_zero _

/-- A picture of a cut is brought to the frame size, and then its ends fade. -/
theorem picture_fades (built : Built transition project graph assembly)
    (opens : project.fade.fadeIn = .int fadeIn) (closes : project.fade.fadeOut = .int fadeOut)
    (durations : graph.durations = lengths.map Value.int) (present : node ∈ graph.nodes)
    (isPicture : node.role = .segmentVideo) :
    ∃ (index : Nat) (length : Int), node.index = index ∧ lengths[index]? = some length ∧
      node.ops = .of "setpts" [.text "PTS-STARTPTS"] [] :: (Effect.frameChain project.frame ++
        edgeFadeOps .video fadeIn fadeOut length index lengths.length) := by
  rcases built.origin present with ⟨cut, cutIn, drawn⟩ | joins
  · obtain ⟨index, length, placed, lengthAt, lasts⟩ := built.cutPlaced durations cutIn
    cases drawn with
    | picture given =>
      rw [built.lengths_length durations] at given
      exact ⟨index, length, placed, lengthAt,
        SegmentStyle.videoOps_of_whole opens closes lasts placed given⟩
    | sound => cases isPicture
    | mix => cases isPicture
  · cases joins <;> cases isPicture

theorem sound_fades (built : Built transition project graph assembly)
    (opens : project.fade.fadeIn = .int fadeIn) (closes : project.fade.fadeOut = .int fadeOut)
    (durations : graph.durations = lengths.map Value.int) (present : node ∈ graph.nodes)
    (isSound : node.role = .segmentAudio) :
    ∃ (index : Nat) (length offset : Int) (volume : Value), node.index = index ∧
      lengths[index]? = some length ∧
      node.ops = .of "asetpts" [.text "PTS-STARTPTS"] [] ::
        (offsetChain offset ++ [.of "volume" [volume] []] ++
          edgeFadeOps .audio fadeIn fadeOut length index lengths.length) := by
  rcases built.origin present with ⟨cut, cutIn, drawn⟩ | joins
  · obtain ⟨index, length, placed, lengthAt, lasts⟩ := built.cutPlaced durations cutIn
    cases drawn with
    | @sound _ _ offset volume _ _ _ _ given =>
      rw [built.lengths_length durations] at given
      exact ⟨index, length, offset, volume, placed, lengthAt,
        SegmentStyle.audioOps_of_whole opens closes lasts placed given⟩
    | picture => cases isSound
    | mix => cases isSound
  · cases joins <;> cases isSound

/-- The picture and the sounds of a cut end in its fades, and no other node has any. -/
theorem edge_parts (built : Built transition project graph assembly)
    (opens : project.fade.fadeIn = .int fadeIn) (closes : project.fade.fadeOut = .int fadeOut)
    (durations : graph.durations = lengths.map Value.int) (present : node ∈ graph.nodes) :
    (∃ (index : Nat) (length : Int) (kind : StreamKind) (before : List Op), node.drawsCut index ∧
      index < lengths.length ∧ (∀ op ∈ before, op.name ∉ Op.edgeFadeNames) ∧
      node.ops = before ++ edgeFadeOps kind fadeIn fadeOut length index lengths.length) ∨
    (∀ index, ¬ node.drawsCut index) ∧ node.keepsEdges := by
  have reset {name : String} (isReset : name ∈ ["setpts", "asetpts"]) :
      (resetTimestamps name).name ∉ Op.edgeFadeNames := by
    rcases List.mem_pair.mp isReset with rfl | rfl <;> decide
  by_cases isPicture : node.role = .segmentVideo
  · obtain ⟨index, length, placed, lengthAt, ops⟩ :=
      built.picture_fades opens closes durations present isPicture
    refine .inl ⟨index, length, .video, _ :: _, ⟨.inl isPicture, placed⟩,
      (List.getElem?_eq_some_iff.mp lengthAt).1, ?_, ops⟩
    exact List.forall_mem_cons.mpr ⟨reset (.head _), Effect.frameChain_other _⟩
  by_cases isSound : node.role = .segmentAudio
  · obtain ⟨index, length, offset, volume, placed, lengthAt, ops⟩ :=
      built.sound_fades opens closes durations present isSound
    refine .inl ⟨index, length, .audio, _ :: _, ⟨.inr isSound, placed⟩,
      (List.getElem?_eq_some_iff.mp lengthAt).1, ?_, ops⟩
    refine List.forall_mem_cons.mpr ⟨reset (.tail _ (.head _)), ?_⟩
    refine List.forall_mem_append.mpr ⟨offsetChain_other offset, fun op inVolume => ?_⟩
    rw [List.mem_singleton.mp inVolume]
    exact of_decide_eq_false rfl
  refine .inr ⟨fun index drawn => drawn.1.elim isPicture isSound, ?_⟩
  rcases built.origin present with ⟨cut, -, drawn⟩ | joins
  · cases drawn with
    | picture => cases isPicture rfl
    | sound => cases isSound rfl
    | mix sounds => exact Segment.keepsEdges_mixNode cut.index sounds
  · exact joins.keepsEdges

theorem edgesFade (built : Built transition project graph assembly)
    (opens : project.fade.fadeIn = .int fadeIn) (closes : project.fade.fadeOut = .int fadeOut)
    (whole : project.fade.crossfade = .int crossfade)
    (durations : graph.durations = lengths.map Value.int) :
    graph.EdgesFade project.frame fadeIn fadeOut crossfade lengths := by
  constructor
  case pictures => exact fun _ => built.picture_fades opens closes durations
  case sounds => exact fun _ => built.sound_fades opens closes durations
  case opens =>
    intro node present
    rcases built.edge_parts opens closes durations present with
      ⟨index, length, kind, before, drawn, _, plain, ops⟩ | ⟨other, keeps⟩
    · rw [ops, List.countP_append, Op.countP_fadesEdge_of_other plain, countP_fadesEdge_in,
        Nat.zero_add]
      simp only [Node.drawsCut_iff drawn]
    · rw [Op.countP_fadesEdge_of_other keeps, if_neg fun fades => other 0 fades.1]
  case closes =>
    intro node present
    rcases built.edge_parts opens closes durations present with
      ⟨index, length, kind, before, drawn, within, plain, ops⟩ | ⟨other, keeps⟩
    · have isLast : index + 1 = lengths.length ↔ index = lengths.length - 1 := by omega
      rw [ops, List.countP_append, Op.countP_fadesEdge_of_other plain, countP_fadesEdge_out,
        Nat.zero_add]
      simp only [Node.drawsCut_iff drawn, isLast]
    · rw [Op.countP_fadesEdge_of_other keeps, if_neg fun fades => other _ fades.1]
  case ends =>
    obtain ⟨place, count⟩ := Nat.exists_eq_add_one_of_ne_zero (built.lengths_ne_zero durations)
    have within : place < lengths.length := by omega
    have lastAt : lengths[place]? = some lengths[place] := List.getElem?_eq_getElem within
    have isLast : (lengths.length : Int) - 1 = (place : Nat) := by omega
    refine ⟨lengths[place], joinStart crossfade lengths place, ?_, ?_, fun long => ?_⟩
    · rw [count, Nat.add_sub_cancel, lastAt]
    · rw [durations, isLast, transitionOffset_int]
    · have start : max 0 (lengths[place] - fadeOut) = lengths[place] - fadeOut :=
        Int.max_eq_right (Int.sub_nonneg.mpr long)
      rw [built.total_eq whole durations, count, joinStart_succ lastAt, start]
      congr 1
      omega

/-- Each cut has a picture, and a sound for its video and for each of its tracks. -/
theorem drawn (built : Built transition project graph assembly) {index : Nat} {cut : Cut}
    (present : project.cuts[index]? = some cut) :
    (∃ node ∈ graph.nodes, node.role = .segmentVideo ∧ node.index = index) ∧
      ∀ position ≤ cut.audio.length, ∃ node ∈ graph.nodes,
        node.role = .segmentAudio ∧ node.index = index ∧ node.track = position := by
  obtain ⟨slot, _, inputs, _, _, inputsAt, resolved, _⟩ := built.resolved.locate present
  rw [Nat.zero_add, Nat.zero_add] at resolved
  obtain ⟨⟨picture, pictureIn, made⟩, sounds⟩ := built.nodes_of_cut inputsAt
  constructor
  · obtain ⟨ops, _, rfl⟩ := SegmentStyle.videoNode_of_ok made
    exact ⟨_, pictureIn, rfl, resolved.index_eq⟩
  · intro position within
    obtain ⟨_, _, _, _, _, _, _, _, slotAt, _⟩ := resolved.sound within
    obtain ⟨sound, soundIn, made⟩ := sounds position _ slotAt
    obtain ⟨_, _, ops, _, _, _, rfl⟩ := SegmentStyle.audioNode_of_ok made
    exact ⟨_, soundIn, rfl, resolved.index_eq, rfl⟩

end Compilation.Built

namespace Compilation

variable {existence : ExistenceCheck} {transition : Transition} {project : Project}
  {draft after : Draft} {graph : Graph} {fadeIn fadeOut crossfade : Int}

/-- Where the fades and the crossfade are whole numbers, a built graph fades at its ends only. -/
theorem edgesFade_of_run_build
    (ran : (build existence transition project).run draft = .ok graph after)
    (opens : project.fade.fadeIn = .int fadeIn) (closes : project.fade.fadeOut = .int fadeOut)
    (whole : project.fade.crossfade = .int crossfade) :
    ∃ lengths : List Int, List.Forall₂ Cut.Lasts project.cuts lengths ∧
      graph.durations = lengths.map Value.int ∧
      graph.EdgesFade project.frame fadeIn fadeOut crossfade lengths ∧
      ∀ (index : Nat) (cut : Cut), project.cuts[index]? = some cut →
        (∃ node ∈ graph.nodes, node.role = .segmentVideo ∧ node.index = index) ∧
        ∀ position ≤ cut.audio.length, ∃ node ∈ graph.nodes,
          node.role = .segmentAudio ∧ node.index = index ∧ node.track = position := by
  obtain ⟨assembly, built⟩ := built_of_run ran
  obtain ⟨lengths, cutsLast, durations⟩ := built.resolved.cutsLast
  rw [← built.durations_eq] at durations
  exact ⟨lengths, cutsLast, durations, built.edgesFade opens closes whole durations,
    fun _ _ present => built.drawn present⟩

/-- Two cuts of seven and five seconds that are brought to one frame size. -/
theorem edgesFade_sampleProject : ∃ graph after,
    (build (fun _ _ => .ok true) .plain
      { sampleProject with frame := [.int 1920, .int 1080] }).run {} = .ok graph after ∧
    graph.EdgesFade [.int 1920, .int 1080] 1 2 1 [7, 5] := by
  have succeeds : Drafting.succeeds (build (fun _ _ => .ok true) .plain
      { sampleProject with frame := [.int 1920, .int 1080] }) {}
      (fun graph => graph.durations = [7, 5].map Value.int) = true := by
    decide +kernel
  obtain ⟨graph, after, ran, given⟩ := exists_of_succeeds succeeds
  obtain ⟨lengths, -, durations, fades, -⟩ := edgesFade_of_run_build ran rfl rfl rfl
  have isLengths : lengths = [7, 5] := by
    rw [of_decide_eq_true given] at durations
    exact (List.map_injective_iff.mpr (fun _ _ => Value.int.inj) durations).symm
  rw [isLengths] at fades
  exact ⟨graph, after, ran, fades⟩

end Compilation

end Montage
