import Montage.Proofs.SegmentOps
import Montage.Proofs.WellFormed

/-!
# Sounds are moved by their offset

A sound is told second by second: which second of its file is heard, or silence. The window of a
sound is as much shorter or longer than the cut as the sound is moved, and the operations cut off
its start or put silence before it. Main statement: `heard_of_run_build`, that after both every
sound of a cut lasts as long as the cut and is moved by just its offset.
-/

namespace Montage

/-! ## Sounds second by second -/

/-- The seconds of its file that a window reads. -/
def Window.seconds (window : Window) : List (Option Int) :=
  (List.range window.duration.toNat).map fun (second : Nat) => some (window.start + second)

/-- What an operation makes of a sound, in which silence is none. -/
def Op.onSound (op : Op) (sound : List (Option Int)) : Option (List (Option Int)) :=
  if op.name = "atrim" then (op.whole? "start").map fun count => sound.drop count.toNat
  else if op.name = "areverse" then some sound.reverse
  else if op.name = "apad" then
    (op.whole? "pad_dur").map fun count => sound ++ List.replicate count.toNat none
  else some sound

/-- What operations make of a sound one after the other. -/
def heardThrough (ops : List Op) (sound : List (Option Int)) : Option (List (Option Int)) :=
  ops.foldlM (fun heard op => op.onSound heard) sound

/-- A sound moved by an offset: silence comes before it, or its start is missing. -/
def shiftedBy (offset : Int) (sound : List (Option Int)) : List (Option Int) :=
  List.replicate offset.toNat none ++ sound.drop (-offset).toNat

theorem Op.onSound_of_steady {op : Op} (steady : op.isSteady) (sound : List (Option Int)) :
    op.onSound sound = some sound := by
  have other : op.name ∉ movingNames := by simpa [isSteady] using steady
  simp only [movingNames, List.mem_cons, not_or] at other
  rw [onSound, if_neg other.1, if_neg other.2.1, if_neg other.2.2.1]

theorem heardThrough_of_steady {ops : List Op} (steady : ∀ op ∈ ops, op.isSteady)
    (sound : List (Option Int)) : heardThrough ops sound = some sound := by
  induction ops with
  | nil => rfl
  | cons op ops ih =>
    obtain ⟨first, more⟩ := List.forall_mem_cons.mp steady
    rw [heardThrough, List.foldlM_cons, op.onSound_of_steady first]
    exact ih more

theorem heardThrough_append (ops more : List Op) (sound : List (Option Int)) :
    heardThrough (ops ++ more) sound = heardThrough ops sound >>= heardThrough more :=
  List.foldlM_append

/-- The operations of an offset move a sound by it. -/
theorem heardThrough_offsetChain (offset : Int) (sound : List (Option Int)) :
    heardThrough (offsetChain offset) sound = some (shiftedBy offset sound) := by
  unfold offsetChain shiftedBy
  split
  · next forward =>
    have none : offset.toNat = 0 := Int.toNat_of_nonpos (Int.le_of_lt forward)
    have dropped : (-offset).toNat = offset.natAbs := by omega
    rw [none, dropped]
    rfl
  · next later =>
    have kept : (-offset).toNat = 0 := by omega
    rw [kept, List.drop_zero]
    split
    · -- The silence is put behind the sound while it is turned round.
      show some (sound.reverse ++ List.replicate offset.toNat none).reverse = _
      rw [List.reverse_append, List.reverse_reverse, List.reverse_replicate]
    · next still =>
      have none : offset.toNat = 0 := by omega
      rw [none]
      rfl

/-! ## Windows that make up for the offset -/

theorem length_shiftedBy_seconds {window : Window} {duration offset : Int}
    (length : window.duration = duration - offset) (remains : 0 < window.duration)
    (lasts : 0 < duration) :
    ((shiftedBy offset window.seconds).length : Int) = duration := by
  simp only [shiftedBy, Window.seconds, List.length_append, List.length_replicate,
    List.length_drop, List.length_map, List.length_range]
  omega

theorem getElem_shiftedBy_seconds (window : Window) (offset : Int) (second : Nat)
    (within : second < (shiftedBy offset window.seconds).length) :
    (shiftedBy offset window.seconds)[second] =
      if second < offset then none else some (window.start + second - offset) := by
  simp only [shiftedBy, List.getElem_append]
  split
  · next silent =>
    rw [List.length_replicate] at silent
    rw [if_pos (by omega), List.getElem_replicate]
  · next heard =>
    rw [List.length_replicate] at heard
    rw [if_neg (by omega)]
    simp only [Window.seconds, List.getElem_drop, List.getElem_map, List.getElem_range,
      List.length_replicate, Option.some.injEq]
    omega

/-- What is heard of a sound of a cut that is known to have this window and this offset. -/
theorem SegmentStyle.heardThrough_audioOps {style : SegmentStyle} {cut : CutInputs}
    {total offset : Int} {volume : Value} {ops : List Op}
    (given : style.audioOps cut total offset volume = .ok ops) (sound : List (Option Int)) :
    heardThrough ops sound = some (shiftedBy offset sound) := by
  obtain ⟨more, rfl, steady⟩ := audioOps_split given
  have reset : (resetTimestamps "asetpts").onSound sound = some sound :=
    Op.onSound_of_steady rfl sound
  calc heardThrough (resetTimestamps "asetpts" :: (offsetChain offset ++ more)) sound
    _ = heardThrough (offsetChain offset ++ more) sound := by
      rw [heardThrough, List.foldlM_cons, reset]
      rfl
    _ = heardThrough (offsetChain offset) sound >>= heardThrough more :=
      heardThrough_append _ _ _
    _ = heardThrough more (shiftedBy offset sound) := by
      rw [heardThrough_offsetChain]
      rfl
    _ = some (shiftedBy offset sound) := heardThrough_of_steady steady _

namespace Compilation

variable {existence : ExistenceCheck} {transition : Transition} {project : Project}
  {draft after : Draft} {graph : Graph}

/-- Every sound of a cut, be it that of the video or a track, lasts as long as the cut and is moved
by just its offset: second by second it is silent before its offset, and then the second of its
file that lies as much earlier. -/
theorem heard_of_run_build
    (compiled : (build existence transition project).run draft = .ok graph after)
    {index position : Nat} {cut : Cut} (present : project.cuts[index]? = some cut)
    (within : position ≤ cut.audio.length) :
    ∃ (start finish offset : Int) (slot : Nat) (window : Window) (node : Node)
        (heard : List (Option Int)),
      Timecode.toSeconds cut.start = .ok start ∧ Timecode.toSeconds cut.finish = .ok finish ∧
      cut.shifts[position]? = some (.ok offset) ∧
      node ∈ graph.nodes ∧ (∀ other ∈ graph.nodes,
        other.label = "a" ++ decimalText index ++ "_" ++ decimalText position ↔ other = node) ∧
      node.sources = [.input slot .audio] ∧
      graph.inputs[slot]? = some window ∧ window.start = start ∧
      heardThrough node.ops window.seconds = some heard ∧ (heard.length : Int) = finish - start ∧
      ∀ (second : Nat) (inside : second < heard.length),
        heard[second] = if second < offset then none else some (start + second - offset) := by
  obtain ⟨assembly, built⟩ := built_of_run compiled
  obtain ⟨slot, own, inputs, start, duration, inputsAt, resolved, inWindows⟩ :=
    built.resolved.locate present
  rw [Nat.zero_add, Nat.zero_add] at resolved
  obtain ⟨window, offset, volume, windowAt, starts, length, remains, shift, slotAt, offsetAt,
    volumeAt⟩ := resolved.sound within
  obtain ⟨node, inGraph, made⟩ := (built.nodes_of_cut inputsAt).2 position _ slotAt
  obtain ⟨found, _, ops, foundAt, _, opsGiven, rfl⟩ := SegmentStyle.audioNode_of_ok made
  obtain rfl : offset = found := by simpa [offsetAt] using foundAt
  refine ⟨start, start + duration, offset, slot + position, window, _,
    shiftedBy offset window.seconds, resolved.starts, resolved.ends, shift, inGraph, ?_, rfl, ?_,
    starts, SegmentStyle.heardThrough_audioOps opsGiven _, ?_, ?_⟩
  · intro other otherIn
    rw [← resolved.index_eq]
    constructor
    · intro label
      exact Graph.eq_of_key built.nodup_keys otherIn inGraph (Node.label_eq_iff.mp label)
    · rintro rfl
      rfl
  · rw [built.inputs_eq]
    exact inWindows position window windowAt
  · rw [length_shiftedBy_seconds length remains resolved.lasts]
    omega
  · intro second inside
    rw [getElem_shiftedBy_seconds, starts]

theorem heard_sampleProject : ∃ graph after,
    (build (fun _ _ => .ok true) .plain sampleProject).run {} = .ok graph after ∧
      ∃ node ∈ graph.nodes, ∃ (window : Window) (heard : List (Option Int)), node.label = "a1_1" ∧
        heardThrough node.ops window.seconds = some heard ∧ heard.length = 5 ∧
        heard[1]? = some none ∧ heard[2]? = some (some 0) := by
  have succeeds : Drafting.succeeds
      (build (fun _ _ => .ok true) .plain sampleProject) {} (fun _ => true) = true := by
    decide +kernel
  obtain ⟨graph, after, compiled, _⟩ := Drafting.exists_of_succeeds succeeds
  have present : sampleProject.cuts[1]? =
      some ⟨⟨.text "night", .int 1⟩, .int 0, .int 5, [⟨.text "rain", .int 1, .int 2⟩]⟩ := rfl
  obtain ⟨start, finish, offset, _, window, node, heard, starts, ends, shift, nodeIn, label, _, _,
    _, given, length, seconds⟩ := heard_of_run_build compiled present (Nat.le_refl 1)
  cases starts
  cases ends
  obtain rfl : (2 : Int) = offset := by cases shift; rfl
  have five : heard.length = 5 := by omega
  refine ⟨graph, after, compiled, node, nodeIn, window, heard, (label node nodeIn).mpr rfl, given,
    five, ?_, ?_⟩
  · rw [List.getElem?_eq_getElem (by omega), seconds]
    rfl
  · rw [List.getElem?_eq_getElem (by omega), seconds]
    rfl

end Compilation

end Montage
