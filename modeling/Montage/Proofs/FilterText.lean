import Montage.Proofs.BuildOutcome
import Montage.Proofs.CommandLayout
import Montage.Proofs.DecimalText
import Montage.Proofs.FilterReader
import Montage.Proofs.OpOrigins
import Montage.Proofs.SavedProject

/-!
# The text of a graph is unambiguous

The parameters of a built graph are numbers, which are written with digits, signs, points and a few
letters, and a few fixed texts. None of these has a mark of the filter language in it, whatever an
edit list says: its own texts are no parameters. So a reader gets back what was written. Main
statements: `OpOrigin.plain`, and `read_of_run_build` for the whole graph.
-/

namespace Montage

open Drafting

/-! ## Values -/

namespace Value

variable {value : Value}

theorem plain_text {text : String} (free : FreeOf filterMarks text) : (Value.text text).Plain := by
  intro written given
  cases given
  exact free

theorem freeOf_realParameter (x : Binary64) :
    FreeOf filterMarks (String.ofList (realParameter x)) := by
  have marks : ∀ mark ∈ filterMarks,
      ¬ (mark.isDigit = true ∨ mark ∈ ['-', '.', 'n', 'a', 'i', 'f']) := by
    simp [filterMarks]
  intro mark isMark present
  rw [String.toList_ofList] at present
  exact marks mark isMark (isDigit_or_mem_of_mem_realParameter present)

/-- Numbers are written without marks. -/
theorem plain_of_number (isNumber : value.number? ≠ none) : value.Plain := by
  intro text written
  cases value with
  | bool b =>
    cases written
    cases b <;> decide
  | int n =>
    rw [parameterText, Text.wholeText] at written
    split at written
    · cases written
      exact freeOf_decimalText n
    · cases written
  | real x =>
    cases written
    exact freeOf_realParameter x
  | null | text _ | list _ | object _ => exact absurd rfl isNumber

theorem plain_int (n : Int) : (Value.int n).Plain :=
  plain_of_number nofun

end Value

/-! ## Operations -/

/-- An operation is plain if its name and its keys, which are given, and its values are. -/
theorem Op.plain_of {name : String} {positional : List Value} {keyed : List (String × Value)}
    (texts : List String) (known : name :: keyed.map (·.1) = texts)
    (free : ∀ text ∈ texts, text ≠ "" ∧ FreeOf filterMarks text)
    (values : ∀ value ∈ positional ++ keyed.map (·.2), value.Plain) :
    (Op.of name positional keyed).Plain := by
  subst known
  obtain ⟨ofName, ofKeys⟩ := List.forall_mem_cons.mp free
  constructor
  case named => exact ofName.1
  case name => exact ofName.2
  case keys =>
    intro param present key isKey
    rcases List.mem_append.mp present with bare | keyed
    · obtain ⟨_, _, rfl⟩ := List.mem_map.mp bare
      cases isKey
    · obtain ⟨entry, inKeyed, rfl⟩ := List.mem_map.mp keyed
      obtain rfl := Option.some.inj isKey
      exact (ofKeys entry.1 (List.mem_map_of_mem inKeyed)).2
  case values =>
    intro param present
    rcases List.mem_append.mp present with bare | keyed
    · obtain ⟨value, inPositional, rfl⟩ := List.mem_map.mp bare
      exact values value (List.mem_append_left _ inPositional)
    · obtain ⟨entry, inKeyed, rfl⟩ := List.mem_map.mp keyed
      exact values entry.2 (List.mem_append_right _ (List.mem_map_of_mem inKeyed))

section Operations

open Value

variable {op : Op} {project : Project} {transition : Transition}

theorem plain_resetTimestamps {name : String} (known : name ∈ ["setpts", "asetpts"]) :
    (resetTimestamps name).Plain := by
  refine Op.plain_of [name] rfl ?_ (List.forall_mem_singleton.mpr (plain_text (by decide)))
  revert name
  decide

theorem plain_of_mem_offsetChain {offset : Int} (present : op ∈ offsetChain offset) :
    op.Plain := by
  rcases offsetChain_cases present with rfl | rfl | rfl | rfl
  · exact Op.plain_of ["atrim", "start"] rfl (by decide)
      (List.forall_mem_singleton.mpr (plain_int _))
  · exact plain_resetTimestamps (by decide)
  · exact Op.plain_of ["areverse"] rfl (by decide) (List.forall_mem_nil _)
  · exact Op.plain_of ["apad", "pad_dur"] rfl (by decide)
      (List.forall_mem_singleton.mpr (plain_int _))

theorem plain_of_mem_letterboxOps {width height : Int}
    (present : op ∈ Effect.letterboxOps (.int width) (.int height)) : op.Plain := by
  simp only [Effect.letterboxOps, List.mem_cons, List.not_mem_nil, or_false] at present
  rcases present with rfl | rfl | rfl
  · refine Op.plain_of ["scale", "force_original_aspect_ratio"] rfl (by decide) ?_
    simp [plain_int, plain_text (show FreeOf filterMarks "decrease" by decide)]
  · refine Op.plain_of ["pad"] rfl (by decide) ?_
    simp [plain_int, plain_text (show FreeOf filterMarks "(ow-iw)/2" by decide),
      plain_text (show FreeOf filterMarks "(oh-ih)/2" by decide)]
  · exact Op.plain_of ["setsar"] rfl (by decide) (List.forall_mem_singleton.mpr (plain_int _))

theorem FadeLengths.Gives.plain {fade : FadeLengths} (gives : fade.Gives op) : op.Plain := by
  cases gives with
  | @intro kind direction start length edge compared isNumber =>
    have known : FreeOf filterMarks direction := by
      rcases List.mem_cons.mp edge with first | last
      · cases first
        decide
      · cases List.mem_singleton.mp last
        decide
    have values : ∀ value ∈ [Value.text direction, start, length], value.Plain := by
      simp [plain_text known, plain_of_number isNumber, plain_of_number (number?_of_le compared)]
    unfold fadeOp
    split
    · exact Op.plain_of ["fade", "t", "st", "d"] rfl (by decide) values
    · exact Op.plain_of ["afade", "t", "st", "d"] rfl (by decide) values

theorem plain_of_videoOp {crossfade offset : Value} (named : FreeOf filterMarks transition.name)
    (isNumber : offset.number? ≠ none) (given : transition.videoOp crossfade offset = .ok op) :
    op.Plain := by
  rcases Transition.videoOp_cases given with rfl | ⟨compared, rfl⟩
  · refine Op.plain_of ["concat", "n", "v", "a"] rfl (by decide) ?_
    simp [plain_int]
  · refine Op.plain_of ["xfade", "transition", "duration", "offset"] rfl (by decide) ?_
    simp [plain_text named, plain_of_number isNumber, plain_of_number (number?_of_le compared)]

theorem plain_of_audioOp {crossfade : Value} (given : Transition.audioOp crossfade = .ok op) :
    op.Plain := by
  rcases Transition.audioOp_cases given with rfl | ⟨compared, rfl⟩
  · refine Op.plain_of ["concat", "n", "v", "a"] rfl (by decide) ?_
    simp [plain_int]
  · exact Op.plain_of ["acrossfade", "d"] rfl (by decide)
      (List.forall_mem_singleton.mpr (plain_of_number (number?_of_le compared)))

/-- With volumes that are numbers and a frame size in whole numbers, nothing that an edit list says
gets into an operation but numbers. -/
theorem OpOrigin.plain (origin : OpOrigin project transition op)
    (named : FreeOf filterMarks transition.name)
    (framed : project.frame = [] ∨ ∃ width height : Int, project.frame = [.int width, .int height])
    (fit : ∀ cut ∈ project.cuts, cut.Fit) : op.Plain := by
  cases origin with
  | reset known => exact plain_resetTimestamps known
  | shift present => exact plain_of_mem_offsetChain present
  | frame sides present =>
    rcases framed with none | ⟨_, _, whole⟩
    · rw [none] at sides
      cases sides
    · rw [whole] at sides
      cases sides
      exact plain_of_mem_letterboxOps present
  | volume cutIn volumeIn present =>
    rw [List.mem_singleton.mp present]
    exact Op.plain_of ["volume"] rfl (by decide)
      (List.forall_mem_singleton.mpr (plain_of_number ((fit _ cutIn).volumes _ volumeIn)))
  | fade gives => exact gives.plain
  | mix present =>
    rw [List.mem_singleton.mp present]
    refine Op.plain_of ["amix", "inputs", "normalize"] rfl (by decide) ?_
    simp [plain_int]
  | picture isNumber given => exact plain_of_videoOp named isNumber given
  | sound given => exact plain_of_audioOp given

end Operations

/-! ## The whole graph -/

theorem Transition.mem_all_of_ofName (name : String) : ofName name ∈ all := by
  rw [ofName]
  cases found : all.find? fun transition => transition.name == name with
  | none => decide
  | some transition => exact List.mem_of_find?_eq_some found

/-- Whatever is asked for, the transition is one that there is. -/
theorem Transition.mem_all_of_ofValue {name : Value} {transition : Transition}
    (given : ofValue name = .ok transition) : transition ∈ all := by
  unfold ofValue at given
  split at given
  · cases given
    exact mem_all_of_ofName _
  · cases given
  · cases given
  · cases given
    decide

theorem Transition.freeOf_name {transition : Transition} (known : transition ∈ all) :
    FreeOf filterMarks transition.name := by
  revert transition
  decide

theorem SegmentStyle.Draws.ops_ne_nil {style : SegmentStyle} {total : Int} {cut : CutInputs}
    {node : Node} (drawn : style.Draws total cut node) : node.ops ≠ [] := by
  cases drawn with
  | picture given =>
    obtain ⟨_, _, given⟩ := except_bind_eq_ok_iff.mp given
    obtain ⟨_, _, given⟩ := except_bind_eq_ok_iff.mp given
    obtain rfl := except_pure_eq_ok_iff.mp given
    exact List.cons_ne_nil _ _
  | sound _ _ _ given =>
    obtain ⟨_, rfl, _⟩ := audioOps_split given
    exact List.cons_ne_nil _ _
  | mix => exact List.cons_ne_nil _ _

namespace Compilation

variable {existence : ExistenceCheck} {transition : Transition} {project : Project}
  {graph : Graph} {draft after : Draft}

/-- A graph is plain if it is built with a known transition from cuts that fit. -/
theorem Built.plain {assembly : Assembly} (built : Built transition project graph assembly)
    (named : FreeOf filterMarks transition.name)
    (framed : project.frame = [] ∨ ∃ width height : Int, project.frame = [.int width, .int height])
    (fit : ∀ cut ∈ project.cuts, cut.Fit) : graph.Plain where
  chains := by
    intro node present
    cases built.origin present with
    | inl drawing =>
      obtain ⟨_, _, drawn⟩ := drawing
      exact drawn.ops_ne_nil
    | inr joins => cases joins <;> exact List.cons_ne_nil _ _
  ops := fun _ present _ inNode => (built.opOrigin present inNode).plain named framed fit

/-- The text of a graph that is built from an edit list is read as it was written: each piece is one
node, with the labels that it reads, its operations with all parameters, and its own label. -/
theorem read_of_run_build {data name : Value} {base : Path}
    (listed : Project.ofValue data base = .ok project)
    (named : Transition.ofValue name = .ok transition)
    (built : (build existence transition project).run draft = .ok graph after) :
    ∃ text readings, graph.text = .ok text ∧ graph.nodes.mapM graph.reading = .ok readings ∧
      FilterReader.graph text = readings.map some := by
  have fit := fit_of_run_build built
  obtain ⟨texts, filters⟩ := filters_of_run_build built
  obtain ⟨_, assembled⟩ := built_of_run built
  have framed : project.frame = [] ∨
      ∃ width height : Int, project.frame = [.int width, .int height] := by
    rcases (Project.settled_of_ofValue listed).1.frame with none | ⟨size, _, _, sides⟩
    · exact .inl none
    · exact .inr ⟨size.width, size.height, sides⟩
  have plain := assembled.plain (Transition.freeOf_name (Transition.mem_all_of_ofValue named))
    framed fit
  have present : graph.nodes ≠ [] := by
    obtain ⟨_, _, _, _, found, _⟩ := assembled.leaving
    exact List.ne_nil_of_mem (List.mem_of_getElem? found)
  have written : graph.text = .ok (";".intercalate texts) := by
    rw [Graph.text, filters]
    rfl
  obtain ⟨readings, given, areRead⟩ := Graph.read_of_text plain present written
  exact ⟨_, readings, written, given, areRead⟩

/-- An edit list with numbers of all kinds, and with marks of the filter language in its ids. -/
def markedDocument : Value :=
  .object [
    ("cuts", .list [
      .object [
        ("video", .object [("id", .text "day;[v0]"), ("volume", .bool true)]),
        ("start", .int 2),
        ("end", .text "00:00:09"),
        ("audio", .list [.object [
          ("id", .text "wind=1:2"),
          ("volume", .real .nan),
          ("offset", .int (-1))]])],
      .object [
        ("video", .object [("id", .text "night")]),
        ("start", .int 0),
        ("end", .int 5)]]),
    ("fade_duration", .object [
      ("in", .real (Binary64.ofRatio false 1 2)),
      ("crossfade", .int 1)]),
    ("resolution", .text "1280x720")]

def markedProject : Project where
  cuts := [
    ⟨⟨.text "day;[v0]", .bool true⟩, .int 2, .text "00:00:09",
      [⟨.text "wind=1:2", .real .nan, .int (-1)⟩]⟩,
    ⟨⟨.text "night", defaultVolume⟩, .int 0, .int 5, []⟩]
  fade := ⟨.real (Binary64.ofRatio false 1 2), .int 0, .int 1⟩
  frame := [.int 1280, .int 720]

theorem read_markedProject : ∃ graph after text readings,
    Project.ofValue markedDocument ⟨0, []⟩ = .ok markedProject ∧
      (build (fun _ _ => .ok true) ⟨"zoomin"⟩ markedProject).run {} = .ok graph after ∧
      graph.text = .ok text ∧ graph.nodes.mapM graph.reading = .ok readings ∧
      FilterReader.graph text = readings.map some := by
  have listed : Project.ofValue markedDocument ⟨0, []⟩ = .ok markedProject := by decide +kernel
  have succeeds : Drafting.succeeds (build (fun _ _ => .ok true) ⟨"zoomin"⟩ markedProject) {}
      (fun _ => true) = true := by
    decide +kernel
  obtain ⟨graph, after, built, _⟩ := exists_of_succeeds succeeds
  have named : Transition.ofValue (.text "zoomin") = .ok ⟨"zoomin"⟩ := by decide
  obtain ⟨text, readings, read⟩ := read_of_run_build listed named built
  exact ⟨graph, after, text, readings, listed, built, read⟩

end Compilation

end Montage
