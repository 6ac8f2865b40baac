import Montage.Proofs.SavedProject
import Montage.Proofs.UncheckedNumbers
import Montage.Proofs.WellFormed

/-!
# What becomes of a build

A build ends in a graph, in a fault that is told of the edit list, or in the defect of a value that
no check stops. Main statements: `explained_of_run_build`, that a build fails in no other way, and
`outcome_of_run_build`, which tells all outcomes of a project that was read.
-/

namespace Montage

open Drafting

variable {existence : ExistenceCheck} {base : Path} {project : Project} {graph : Graph}
  {draft after : Draft} {failure : Failure}

/-! ## Writing the graph -/

theorem Value.bareText_eq_error {value : Value} {defect : Defect}
    (failed : value.bareText = .error defect) : defect = .badValue ∧ value.Overlong := by
  unfold bareText at failed
  split at failed
  · cases failed
  · next long =>
    cases failed
    exact ⟨rfl, isSpellable_eq_false_iff.mp (Bool.eq_false_iff.mpr long)⟩

theorem parameterText_eq_error {value : Value} {defect : Defect}
    (failed : parameterText value = .error defect) : defect = .badValue ∧ value.Overlong := by
  cases value with
  | int n =>
    obtain ⟨rfl, long⟩ := Text.wholeText_eq_error failed
    exact ⟨rfl, .int long⟩
  | bool _ | real _ => cases failed
  | null | text _ | list _ | object _ => exact Value.bareText_eq_error failed

theorem Op.text_eq_error {op : Op} {defect : Defect} (failed : op.text = .error defect) :
    defect = .badValue ∧ ∃ key value, (key, value) ∈ op.params ∧ value.Overlong := by
  unfold Op.text at failed
  split at failed
  · cases failed
  · have refused := except_bind_pure_eq_error_iff.mp failed
    obtain ⟨⟨key, value⟩, listed, refused⟩ := except_exists_of_mapM_error refused
    have written : parameterText value = .error defect := by
      cases key with
      | none => exact refused
      | some key => exact except_bind_pure_eq_error_iff.mp refused
    obtain ⟨isBad, long⟩ := parameterText_eq_error written
    exact ⟨isBad, key, value, listed, long⟩

/-- A graph without loose ends is written unless a parameter is too long. -/
theorem Graph.Wired.text_eq_error {loose : List (Source × StreamKind)} {defect : Defect}
    (wired : graph.Wired loose) (failed : graph.text = .error defect) :
    Unchecked project graph defect := by
  obtain ⟨node, nodeIn, failed⟩ :=
    except_exists_of_mapM_error (except_bind_pure_eq_error_iff.mp failed)
  unfold Graph.expression at failed
  rcases except_bind_eq_error_iff.mp failed with refused | ⟨_, _, failed⟩
  · -- What a node reads is there, so it has a label.
    obtain ⟨source, sourceIn, refused⟩ := except_exists_of_mapM_error refused
    have known := wired.sourceKinds node nodeIn source sourceIn
    cases source with
    | input index kind => cases refused
    | node index =>
      obtain ⟨found, foundAt, _⟩ := Option.map_eq_some_iff.mp known
      have labelled : graph.labelOf (.node index) = .ok found.label := by
        rw [labelOf, Graph.node, foundAt]
        rfl
      cases labelled.symm.trans refused
  · obtain ⟨op, opIn, refused⟩ :=
      except_exists_of_mapM_error (except_bind_pure_eq_error_iff.mp failed)
    obtain ⟨rfl, key, value, listed, long⟩ := Op.text_eq_error refused
    exact .parameter nodeIn opIn listed long

/-! ## The whole build -/

namespace Compilation

variable {transition : Transition}

/-- Once the fades are checked and the cuts are resolved, the lengths of both are known. -/
theorem timed_of_resolved {windows : List Window} {cuts : List CutInputs}
    (fade : checkFade project.fade = .ok ())
    (resolved : CutInputs.CutsResolved base 0 0 project.cuts windows cuts) :
    ∃ lengths, project.Timed lengths ∧ cuts.map (·.duration) = lengths.map Value.int := by
  obtain ⟨lengths, lasts, durations, positive⟩ := resolved.lengths
  obtain ⟨fadeIn, fadeOut, crossfade⟩ := checkFade_eq_ok_iff.mp fade
  exact ⟨lengths, ⟨lasts, positive, (checkLength_eq_ok_iff.mp fadeIn).1,
    (checkLength_eq_ok_iff.mp fadeOut).1, (checkLength_eq_ok_iff.mp crossfade).1⟩, durations⟩

/-- The segments of resolved cuts are numbered below the count of the cuts. -/
theorem index_lt_of_run_addSegments {style : SegmentStyle} {total : Int} {edits : List Cut}
    {windows : List Window} {cuts : List CutInputs} {segments : List Segment}
    (resolved : CutInputs.CutsResolved base 0 0 edits windows cuts)
    (added : (addSegments style total cuts).run draft = .ok segments after) :
    ∀ segment ∈ segments, 0 ≤ segment.index ∧ segment.index < cuts.length := by
  intro segment present
  have listed : segment.index ∈ segments.map (·.index) := List.mem_map_of_mem present
  rw [indices_of_run_addSegments added, resolved.indices_eq] at listed
  obtain ⟨place, placeIn, same⟩ := List.mem_map.mp listed
  have within := (List.mem_range'_1.mp placeIn).2
  omega

/-- Whatever a build of a project fails with, it is told of the edit list or is the defect of an
unchecked value. -/
theorem explained_of_run_build (answers : existence.Answers)
    (framed : project.frame = [] ∨ ∃ width height, project.frame = [width, height])
    (failed : (build existence transition project).run draft = .error failure after) :
    Explained project after.graph failure := by
  unfold build at failed
  rcases run_refuse_eq_error_iff.mp failed with ⟨_, rfl, _⟩ | ⟨present, failed⟩
  · exact .edit _
  rcases run_bind_eq_error_iff.mp failed with refused | ⟨_, _, faded, failed⟩
  · exact explained_of_checkFade (run_lift_eq_error_iff.mp refused).1
  obtain ⟨fade, rfl⟩ := run_lift_eq_ok_iff.mp faded
  rcases run_bind_eq_error_iff.mp failed with never | ⟨_, _, _, failed⟩
  · cases never
  rcases run_bind_eq_error_iff.mp failed with refused | ⟨⟨windows, cuts⟩, _, resolving, failed⟩
  · exact CutInputs.explained_of_run_resolve answers refused
  obtain ⟨resolved, _⟩ := CutInputs.projectResolved_of_run resolving
  obtain ⟨lengths, timed, durations⟩ := timed_of_resolved fade resolved
  have ready := resolved.ready durations timed.positive
  have count : cuts.length = lengths.length := by simpa using congrArg List.length durations
  dsimp only at failed
  rw [durations] at failed
  rcases run_bind_eq_error_iff.mp failed with refused | ⟨total, _, totalRun, failed⟩
  · obtain ⟨refused, _⟩ := run_lift_eq_error_iff.mp refused
    refine timed.explained_of_checkTotal ?_ refused
    rintro rfl
    have none : project.cuts.length = 0 := resolved.length_eq ▸ count
    exact present (List.isEmpty_iff.mpr (List.eq_nil_of_length_eq_zero none))
  obtain ⟨totalGiven, rfl⟩ := run_lift_eq_ok_iff.mp totalRun
  rcases run_bind_eq_error_iff.mp failed with warned | ⟨_, _, _, failed⟩
  · exact absurd warned (run_warnOfLongCrossfade_ne_error timed.crossfade)
  rcases run_bind_eq_error_iff.mp failed with never | ⟨_, begun, beginning, failed⟩
  · cases never
  rcases run_bind_eq_error_iff.mp failed with refused | ⟨segments, segmented, segmenting, failed⟩
  · exact timed.explained_of_run_addSegments framed ready refused
  rcases run_bind_eq_error_iff.mp failed with refused | ⟨final, joined, joining, failed⟩
  · refine timed.explained_of_run_compose ?_ ?_ refused
    · rw [durations_of_run_addSegments segmenting, durations]
    · intro segment present
      have most := length_le_together timed.positive
      obtain ⟨least, below⟩ := index_lt_of_run_addSegments resolved segmenting segment present
      omega
  rcases run_bind_eq_error_iff.mp failed with never | ⟨finished, _, finishing, failed⟩
  · cases never
  rw [← durations] at totalGiven beginning
  cases beginning
  cases finishing
  -- From here on the graph is built, and nothing but its text can fail.
  have built : Built transition project { joined.graph with
      videoOut := some final.video, audioOut := some final.audio, total := total }
      ⟨windows, cuts, segments, final, _, segmented, joined⟩ :=
    ⟨fade, resolved, totalGiven, rfl, segmenting, joining, rfl⟩
  obtain ⟨_, _, _, _, _, _, _, _, labels, _⟩ := built.leaving
  rcases run_bind_eq_error_iff.mp failed with refused | ⟨_, _, labelling, failed⟩
  · obtain ⟨_, refused, _⟩ := run_lift_defect_eq_error_iff.mp refused
    cases labels.symm.trans refused
  obtain ⟨_, rfl⟩ := run_lift_defect_eq_ok_iff.mp labelling
  rcases run_bind_eq_error_iff.mp failed with never | ⟨_, _, reported, failed⟩
  · cases never
  cases reported
  rcases run_bind_eq_error_iff.mp failed with refused | ⟨_, _, _, failed⟩
  · obtain ⟨_, written, rfl, rfl⟩ := run_lift_defect_eq_error_iff.mp refused
    exact .defect (built.wired.text_eq_error written)
  · cases run_bind_pure_eq_error_iff.mp failed

theorem fit_of_run_build
    (built : (build existence transition project).run draft = .ok graph after) :
    ∀ cut ∈ project.cuts, cut.Fit := by
  obtain ⟨_, _, _, _, steps⟩ := steps_of_run_build built
  obtain ⟨⟨_, _⟩, _, cuts, _⟩ := run_bind_eq_ok_iff.mp steps.resolving
  exact CutInputs.fit_of_run_resolveCuts cuts

/-- What becomes of a project that was read: a graph, whose cuts have only values of the right
kind; a failure that is told of the edit list; or a defect, which no check stops, of a value of
the project. -/
theorem outcome_of_run_build {data : Value} (read : Project.ofValue data base = .ok project)
    (answers : existence.Answers) (transition : Transition) (draft : Draft) :
    (∃ graph after, (build existence transition project).run draft = .ok graph after ∧
      ∀ cut ∈ project.cuts, cut.Fit) ∨
    (∃ cause after, (build existence transition project).run draft =
      .error (.edit cause) after) ∨
    ∃ defect after, (build existence transition project).run draft =
      .error (.defect defect) after ∧ Unchecked project after.graph defect := by
  have framed : project.frame = [] ∨ ∃ width height, project.frame = [width, height] := by
    rcases (Project.settled_of_ofValue read).1.frame with none | ⟨size, _, _, sides⟩
    · exact .inl none
    · exact .inr ⟨_, _, sides⟩
  cases outcome : (build existence transition project).run draft with
  | ok graph after => exact .inl ⟨graph, after, rfl, fit_of_run_build outcome⟩
  | error failure after =>
    cases explained_of_run_build answers framed outcome with
    | edit cause => exact .inr (.inl ⟨cause, after, rfl⟩)
    | defect unchecked => exact .inr (.inr ⟨_, after, rfl, unchecked⟩)

/-- An edit list with one cut, which lasts for more seconds than the range of binary64, and a real
crossfade. -/
def endlessDocument : Value :=
  .object [
    ("cuts", .list [.object [
      ("video", .object [("id", .text "day")]),
      ("start", .int 0),
      ("end", .int (Nat.pow 10 400))]]),
    ("fade_duration", .object [("crossfade", .real (Binary64.ofRatio false 1 2))])]

theorem outcome_endlessDocument : ∃ project draft,
    Project.ofValue endlessDocument ⟨0, []⟩ = .ok project ∧
      (build (fun _ _ => .ok true) .plain project).run {} = .error (.defect .overflow) draft ∧
      Unchecked project draft.graph .overflow := by
  have read : Project.ofValue endlessDocument ⟨0, []⟩ = .ok ⟨
      [⟨⟨.text "day", defaultVolume⟩, .int 0, .int (Nat.pow 10 400), []⟩],
      ⟨.int 0, .int 0, .real (Binary64.ofRatio false 1 2)⟩, [], ⟨0, []⟩, .null, .null⟩ := by
    decide +kernel
  have failed : (run (build (fun _ _ => .ok true) .plain ⟨
      [⟨⟨.text "day", defaultVolume⟩, .int 0, .int (Nat.pow 10 400), []⟩],
      ⟨.int 0, .int 0, .real (Binary64.ofRatio false 1 2)⟩, [], ⟨0, []⟩, .null, .null⟩)).1 =
      .error (.defect .overflow) := by
    decide +kernel
  unfold run at failed
  rcases outcome_of_run_build read (fun _ _ => ⟨true, rfl⟩) .plain {} with
    ⟨_, _, ran, _⟩ | ⟨_, _, ran⟩ | ⟨defect, after, ran, unchecked⟩
  · rw [ran] at failed
    cases failed
  · rw [ran] at failed
    cases failed
  · rw [ran] at failed
    cases failed
    exact ⟨_, after, read, ran, unchecked⟩

/-- An edit list with a volume that is a text. -/
def loudDocument : Value :=
  .object [("cuts", .list [.object [
    ("video", .object [("id", .text "day"), ("volume", .text "loud")]),
    ("start", .int 0),
    ("end", .int 5)]])]

/-- A volume that is no number is not found by any check. -/
theorem defect_loudDocument : ∃ project,
    Project.ofValue loudDocument ⟨0, []⟩ = .ok project ∧
      (run (build (fun _ _ => .ok true) .plain project)).1 = .error (.defect .wrongKind) := by
  refine ⟨⟨[⟨⟨.text "day", .text "loud"⟩, .int 0, .int 5, []⟩], .none, [], ⟨0, []⟩, .null, .null⟩,
    ?_, ?_⟩
  · decide +kernel
  · decide +kernel

end Compilation

end Montage
