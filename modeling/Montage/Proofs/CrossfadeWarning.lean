import Mathlib.Algebra.BigOperators.Group.List.Basic
import Montage.Proofs.JoinOffsets
import Montage.Proofs.UncheckedNumbers

/-!
# The warning of a long crossfade

A build reports a warning in one case only, that the crossfade is longer than the shortest of
several cuts. Every other step is quiet (`Drafting.Quiet`). The test looks at one cut at a time,
while the joins add up all cuts before them; still a crossfade that passes it fits every join of
the timeline (`Timeline.Realisable`). Main statement: `judged_of_run_build`.
-/

namespace Montage

open Drafting

/-! ## Quiet steps -/

/-- The warnings that a draft has been given. -/
def Draft.warnings (draft : Draft) : List LogRecord :=
  draft.log.filter (·.level == .warning)

namespace Drafting

variable {α β : Type}

/-- A step that reports no warning, whether it succeeds or fails. -/
def Quiet (step : Drafting α) : Prop :=
  ∀ draft, Ensures (fun _ after => after.warnings = draft.warnings)
    (fun _ after => after.warnings = draft.warnings) (step.run draft)

theorem Quiet.warnings_eq {step : Drafting α} {draft after : Draft} {value : α}
    (quiet : Quiet step) (ran : step.run draft = .ok value after) :
    after.warnings = draft.warnings :=
  (quiet draft).of_ok ran

theorem quiet_pure (value : α) : Quiet (pure value) :=
  fun _ => .ok rfl

theorem quiet_throw (failure : Failure) : Quiet (throw failure : Drafting α) :=
  fun _ => .error rfl

theorem Quiet.bind {step : Drafting α} {next : α → Drafting β} (first : Quiet step)
    (rest : ∀ value, Quiet (next value)) : Quiet (step >>= next) := by
  intro draft
  refine ensures_bind (first draft) ?_
  intro value middle same
  rw [← same]
  exact rest value middle

theorem quiet_lift (operation : Except Failure α) : Quiet (liftM operation : Drafting α) := by
  cases operation with
  | ok value => exact quiet_pure value
  | error failure => exact quiet_throw failure

theorem quiet_lift_defect (operation : Except Defect α) :
    Quiet (liftM operation : Drafting α) := by
  cases operation with
  | ok value => exact quiet_pure value
  | error defect => exact quiet_throw (.defect defect)

theorem quiet_ite {condition : Prop} [Decidable condition] {step other : Drafting α}
    (first : Quiet step) (second : Quiet other) : Quiet (if condition then step else other) := by
  split
  · exact first
  · exact second

/-- A refusal that a step starts with in some case is quiet itself. -/
theorem quiet_refuse {refused : Prop} [Decidable refused] {failure : Failure}
    {next : β → Drafting α} {rest : Drafting α} (quiet : Quiet rest) :
    Quiet (if refused then throw failure >>= next else rest) :=
  quiet_ite (fun _ => .error rfl) quiet

theorem quiet_addNode (node : Node) : Quiet (addNode node) :=
  fun _ => .ok rfl

theorem quiet_noteCheck (base : Path) (id : Value) : Quiet (noteCheck base id) :=
  fun _ => .ok rfl

theorem quiet_report {level : LogLevel} (other : level ≠ .warning) (reporter text : String) :
    Quiet (report level reporter text) := by
  intro draft
  have same : (draft.log ++ [LogRecord.mk level reporter text]).filter (·.level == .warning) =
      draft.log.filter (·.level == .warning) := by
    rw [List.filter_append, List.filter_singleton, beq_eq_false_iff_ne.mpr other]
    exact List.append_nil _
  exact .ok same

end Drafting

namespace CutInputs

variable (existence : ExistenceCheck) (base : Path)

theorem quiet_requireSource (index : Nat) (role : SourceRole) (id : Value) :
    Quiet (requireSource existence base index role id) :=
  (quiet_noteCheck base id).bind fun _ =>
    (quiet_lift _).bind fun _ => quiet_ite (quiet_throw _) (quiet_pure _)

theorem quiet_resolveTrack (index number : Nat) (start duration : Int) (track : AudioTrack) :
    Quiet (resolveTrack existence base index start duration number track) := by
  unfold resolveTrack
  refine quiet_refuse ((quiet_lift_defect _).bind fun _ => quiet_refuse ?_)
  refine (quiet_requireSource existence base index _ _).bind fun _ => ?_
  refine quiet_ite ((quiet_lift _).bind fun _ => quiet_refuse ?_) (quiet_refuse ?_)
  · exact (quiet_lift_defect _).bind fun _ => quiet_pure _
  · exact (quiet_lift_defect _).bind fun _ => quiet_pure _

theorem quiet_resolveTracks (index number : Nat) (start duration : Int)
    (tracks : List AudioTrack) :
    Quiet (resolveTracks existence base index start duration number tracks) := by
  induction tracks generalizing number with
  | nil => exact quiet_pure _
  | cons track tracks ih =>
    exact (quiet_resolveTrack existence base index number start duration track).bind fun _ =>
      (ih (number + 1)).bind fun _ => quiet_pure _

theorem quiet_resolveCut (index slot : Nat) (cut : Cut) :
    Quiet (resolveCut existence base index slot cut) := by
  unfold resolveCut
  refine quiet_refuse ((quiet_lift _).bind fun start => (quiet_lift _).bind fun finish => ?_)
  refine quiet_refuse ((quiet_lift_defect _).bind fun _ => quiet_refuse ?_)
  refine (quiet_requireSource existence base index _ _).bind fun _ => ?_
  refine (quiet_lift_defect _).bind fun _ => ?_
  refine (quiet_resolveTracks existence base index 1 start (finish - start) cut.audio).bind ?_
  exact fun _ => (quiet_report (by decide) _ _).bind fun _ => quiet_pure _

theorem quiet_resolveCuts (index slot : Nat) (cuts : List Cut) :
    Quiet (resolveCuts existence base index slot cuts) := by
  induction cuts generalizing index slot with
  | nil => exact quiet_pure _
  | cons cut cuts ih =>
    exact (quiet_resolveCut existence base index slot cut).bind fun _ =>
      (ih _ _).bind fun _ => quiet_pure _

theorem quiet_resolve (project : Project) : Quiet (resolve existence project) :=
  (quiet_resolveCuts existence project.base 0 0 project.cuts).bind fun _ =>
    (quiet_report (by decide) _ _).bind fun _ => quiet_pure _

end CutInputs

theorem SegmentStyle.quiet_addAudioFrom (style : SegmentStyle) (cut : CutInputs) (total : Int)
    (track : Nat) (slots : List Int) : Quiet (style.addAudioFrom cut total track slots) := by
  induction slots generalizing track with
  | nil => exact quiet_pure _
  | cons slot slots ih =>
    exact (quiet_lift _).bind fun _ => (quiet_addNode _).bind fun _ =>
      (ih (track + 1)).bind fun _ => quiet_pure _

theorem Segment.quiet_ofCut (style : SegmentStyle) (total : Int) (cut : CutInputs) :
    Quiet (ofCut style total cut) := by
  have video : Quiet (style.addVideo cut total) :=
    (quiet_lift _).bind fun _ => quiet_addNode _
  have mix : ∀ sounds, Quiet (addMix cut.index sounds) :=
    fun _ => quiet_refuse (quiet_addNode _)
  exact video.bind fun _ => (style.quiet_addAudioFrom cut total 0 cut.audio).bind fun _ =>
    (mix _).bind fun _ => quiet_pure _

theorem Compilation.quiet_addSegments (style : SegmentStyle) (total : Int)
    (cuts : List CutInputs) : Quiet (addSegments style total cuts) := by
  induction cuts with
  | nil => exact quiet_pure _
  | cons cut cuts ih =>
    exact (Segment.quiet_ofCut style total cut).bind fun _ => ih.bind fun _ => quiet_pure _

theorem Compilation.quiet_beginGraph (windows : List Window) (durations : List Value)
    (crossfade : Value) : Quiet (beginGraph windows durations crossfade) :=
  fun _ => .ok rfl

theorem Compilation.quiet_finishGraph (final : Composite) (total : Value) :
    Quiet (finishGraph final total) :=
  fun _ => .ok rfl

namespace Composite

theorem quiet_join (crossfade : Value) (transition : Transition) (state : Composite)
    (segment : Segment) : Quiet (join crossfade transition state segment) := by
  unfold join
  refine (quiet_lift_defect _).bind fun _ => (quiet_lift_defect _).bind fun _ => ?_
  refine (quiet_addNode _).bind fun _ => (quiet_lift_defect _).bind fun _ => ?_
  refine (quiet_addNode _).bind fun _ => (quiet_report (by decide) _ _).bind fun _ => ?_
  exact (quiet_lift_defect _).bind fun _ => quiet_pure _

theorem quiet_compose (crossfade : Value) (transition : Transition) (segments : List Segment) :
    Quiet (compose crossfade transition segments) := by
  have joins : ∀ state rest, Quiet (joinAll crossfade transition state rest) := by
    intro state rest
    induction rest generalizing state with
    | nil => exact quiet_pure _
    | cons segment rest ih =>
      exact (quiet_join crossfade transition state segment).bind fun next => ih next
  cases segments with
  | nil => exact quiet_throw _
  | cons first rest => exact joins _ rest

end Composite

/-! ## The warning -/

namespace Compilation

variable {draft after : Draft}

/-- The warning of a crossfade that is longer than the shortest cut. -/
def longCrossfade (crossfade least : Int) : LogRecord where
  level := .warning
  reporter := "GraphBuilder"
  text := "Crossfade de " ++ decimalText crossfade ++ "s maior que o corte mais curto (" ++
    decimalText least ++ "s)"

/-- The warnings that are reported of a crossfade and of cuts of some lengths. -/
def crossfadeWarnings (crossfade : Int) (lengths : List Int) : List LogRecord :=
  match lengths with
  | first :: second :: rest =>
    let least := (second :: rest).foldl min first
    if least < crossfade then [longCrossfade crossfade least] else []
  | _ => []

theorem warnings_of_run_warnOfLongCrossfade {crossfade : Int} {lengths : List Int} {result : Unit}
    (ran : (warnOfLongCrossfade (lengths.map Value.int) (.int crossfade)).run draft =
      .ok result after) :
    after.warnings = draft.warnings ++ crossfadeWarnings crossfade lengths := by
  unfold warnOfLongCrossfade at ran
  rcases lengths with _ | ⟨first, _ | ⟨second, rest⟩⟩
  · obtain ⟨-, rfl⟩ := run_pure_eq_ok_iff.mp ran
    exact (List.append_nil _).symm
  · obtain ⟨-, rfl⟩ := run_pure_eq_ok_iff.mp ran
    exact (List.append_nil _).symm
  · obtain ⟨_, _, shortestRun, ran⟩ := run_bind_eq_ok_iff.mp ran
    obtain ⟨given, rfl⟩ := run_lift_defect_eq_ok_iff.mp shortestRun
    rw [← List.map_cons, shortest_int] at given
    obtain rfl := Except.ok.inj given
    obtain ⟨_, _, comparison, ran⟩ := run_bind_eq_ok_iff.mp ran
    obtain ⟨compared, rfl⟩ := run_lift_defect_eq_ok_iff.mp comparison
    clear comparison
    rw [Value.lt_int] at compared
    obtain rfl := Except.ok.inj compared
    unfold crossfadeWarnings
    dsimp only
    by_cases long : (second :: rest).foldl min first < crossfade
    · rw [if_pos (decide_eq_true long)] at ran
      cases ran
      rw [if_pos long]
      exact List.filter_append ..
    · rw [if_neg (mt of_decide_eq_true long)] at ran
      obtain ⟨-, rfl⟩ := run_pure_eq_ok_iff.mp ran
      rw [if_neg long, List.append_nil]

/-- A build reports the warnings of its crossfade and of the lengths of its cuts, and no other. -/
theorem warnings_of_run_build {existence : ExistenceCheck} {transition : Transition}
    {project : Project} {graph : Graph} {crossfade : Int}
    (built : (build existence transition project).run draft = .ok graph after)
    (whole : project.fade.crossfade = .int crossfade) {lengths : List Int}
    (durations : graph.durations = lengths.map Value.int) :
    after.warnings = draft.warnings ++ crossfadeWarnings crossfade lengths := by
  obtain ⟨announced, resolved, warned, assembly, steps⟩ := steps_of_run_build built
  obtain ⟨_, announcing⟩ := steps.announcing
  obtain ⟨finished, _, _, _, finishing, summarising, _, describing⟩ := steps.finishing
  have before : resolved.warnings = draft.warnings :=
    ((CutInputs.quiet_resolve existence project).warnings_eq steps.resolving).trans
      ((quiet_report (by decide) _ _).warnings_eq announcing)
  have begun : assembly.begun.warnings = warned.warnings :=
    (quiet_beginGraph _ _ _).warnings_eq steps.beginning
  have joined : assembly.joined.warnings = assembly.begun.warnings :=
    ((Composite.quiet_compose _ _ _).warnings_eq steps.joining).trans
      ((quiet_addSegments _ _ _).warnings_eq steps.segmenting)
  have behind : after.warnings = assembly.joined.warnings :=
    ((quiet_report (by decide) _ _).warnings_eq describing).trans
      (((quiet_report (by decide) _ _).warnings_eq summarising).trans
        ((quiet_finishGraph _ _).warnings_eq finishing))
  have warning := steps.warning
  rw [← steps.built.durations_eq, durations, whole] at warning
  rw [behind, joined, begun, warnings_of_run_warnOfLongCrossfade warning, before]

end Compilation

/-! ## Joins that can be made -/

/-- A cut that lasts for a count of seconds. -/
def Cut.Lasts (cut : Cut) (length : Int) : Prop :=
  ∃ start, Timecode.toSeconds cut.start = .ok start ∧
    Timecode.toSeconds cut.finish = .ok (start + length)

/-- The durations that cuts resolve to are the seconds that they last. -/
theorem CutInputs.CutsResolved.cutsLast {base : Path} {index slot : Nat} {cuts : List Cut}
    {windows : List Window} {inputs : List CutInputs}
    (resolved : CutsResolved base index slot cuts windows inputs) :
    ∃ lengths : List Int, List.Forall₂ Cut.Lasts cuts lengths ∧
      inputs.map (·.duration) = lengths.map Value.int := by
  induction resolved with
  | nil => exact ⟨[], .nil, rfl⟩
  | @cons _ _ _ start duration _ _ _ _ _ first _ ih =>
    obtain ⟨lengths, cutsLast, durations⟩ := ih
    obtain ⟨_, _, _, _, _, rfl⟩ := first.rest
    exact ⟨duration :: lengths, .cons ⟨start, first.starts, first.ends⟩ cutsLast,
      by rw [List.map_cons, List.map_cons, durations]⟩

namespace Timeline

/-- The second at which the join of a cut starts: the cuts before it have passed, less one
crossfade for every join up to it. -/
def joinStart (crossfade : Int) (lengths : List Int) (index : Nat) : Int :=
  (lengths.take index).sum - crossfade * (index : Int)

/-- A join that can be made. -/
structure Realisable (crossfade : Int) (lengths : List Int) (index : Nat) : Prop where
  /-- It starts on the timeline. -/
  starts : 0 ≤ joinStart crossfade lengths index
  /-- What has been composed before it is not shorter than the crossfade. -/
  left : crossfade ≤ (lengths.take index).sum - crossfade * ((index : Int) - 1)
  /-- Its own cut is not shorter either. -/
  right : ∃ length, lengths[index]? = some length ∧ crossfade ≤ length
  /-- No later join starts before it. -/
  ordered : ∀ later, index ≤ later → later < lengths.length →
    joinStart crossfade lengths index ≤ joinStart crossfade lengths later

variable {crossfade : Int} {lengths : List Int} {index : Nat}

theorem joinStart_succ {length : Int} (found : lengths[index]? = some length) :
    joinStart crossfade lengths (index + 1) =
      joinStart crossfade lengths index + (length - crossfade) := by
  obtain ⟨within, rfl⟩ := List.getElem?_eq_some_iff.mp found
  rw [joinStart, joinStart, List.sum_take_succ lengths index within, Int.natCast_succ, Int.mul_add]
  omega

/-- Cuts that are not shorter than the crossfade move the joins behind them on. -/
theorem joinStart_le {later : Nat} (short : ∀ length ∈ lengths, crossfade ≤ length)
    (behind : index ≤ later) (within : later ≤ lengths.length) :
    joinStart crossfade lengths index ≤ joinStart crossfade lengths later := by
  induction behind with
  | refl => exact Int.le_refl _
  | @step later _ ih =>
    have found : lengths[later]? = some lengths[later] := List.getElem?_eq_getElem within
    have fits := short _ (List.mem_of_getElem? found)
    have before := ih (Nat.le_of_succ_le within)
    rw [joinStart_succ found]
    omega

/-- Where no cut is shorter than the crossfade, every join can be made. -/
theorem realisable_of_short (short : ∀ length ∈ lengths, crossfade ≤ length)
    (within : index < lengths.length) : Realisable crossfade lengths index := by
  have starts : 0 ≤ joinStart crossfade lengths index := by
    have first : joinStart crossfade lengths 0 = 0 := by simp [joinStart]
    rw [← first]
    exact joinStart_le short (Nat.zero_le index) (Nat.le_of_lt within)
  have found : lengths[index]? = some lengths[index] := List.getElem?_eq_getElem within
  refine ⟨starts, ?_, ⟨_, found, short _ (List.mem_of_getElem? found)⟩, ?_⟩
  · unfold joinStart at starts
    rw [Int.mul_sub]
    omega
  · exact fun later behind inside => joinStart_le short behind (Nat.le_of_lt inside)

end Timeline

namespace Compilation

open Timeline

/-- The joined picture of a cut starts at a second, and no other node joins this cut. -/
def JoinsAt (graph : Graph) (index : Nat) (start : Int) : Prop :=
  ∃ video ∈ graph.nodes, video.role = .videoJoin ∧ video.index = index ∧
    (∃ op, video.ops = [op] ∧ op.name = "xfade" ∧ op.whole? "offset" = some start) ∧
    ∀ other ∈ graph.nodes, other.role = .videoJoin → other.index = index → other = video

/-- How a crossfade is judged that cuts of some lengths are joined with. -/
structure Judged (graph : Graph) (crossfade : Int) (lengths : List Int)
    (warnings : List LogRecord) : Prop where
  /-- That it is longer than one of several cuts is reported once, with the shortest of them. -/
  warned : 2 ≤ lengths.length → (∃ length ∈ lengths, length < crossfade) →
    ∃ least ∈ lengths, (∀ length ∈ lengths, least ≤ length) ∧
      warnings = [longCrossfade crossfade least]
  /-- Otherwise nothing is reported. -/
  silent : ¬ (2 ≤ lengths.length ∧ ∃ length ∈ lengths, length < crossfade) → warnings = []
  /-- Where nothing is reported, all joins can be made. -/
  realisable : warnings = [] → ∀ index, 0 < index → index < lengths.length →
    Realisable crossfade lengths index
  /-- The joins start where they are expected to. -/
  joins : 0 < crossfade → ∀ index, 0 < index → index < lengths.length →
    JoinsAt graph index (joinStart crossfade lengths index)

variable {crossfade : Int} {lengths : List Int}

theorem crossfadeWarnings_of_long (several : 2 ≤ lengths.length)
    (long : ∃ length ∈ lengths, length < crossfade) :
    ∃ least ∈ lengths, (∀ length ∈ lengths, least ≤ length) ∧
      crossfadeWarnings crossfade lengths = [longCrossfade crossfade least] := by
  obtain ⟨length, present, less⟩ := long
  rcases lengths with _ | ⟨first, _ | ⟨second, rest⟩⟩
  · cases present
  · simp at several
  · obtain ⟨least, below⟩ := List.min?_eq_some_iff.mp
      (rfl : (first :: second :: rest).min? = some ((second :: rest).foldl min first))
    refine ⟨_, least, below, ?_⟩
    exact if_pos (Int.lt_of_le_of_lt (below length present) less)

theorem crossfadeWarnings_of_short
    (short : ¬ (2 ≤ lengths.length ∧ ∃ length ∈ lengths, length < crossfade)) :
    crossfadeWarnings crossfade lengths = [] := by
  rcases lengths with _ | ⟨first, _ | ⟨second, rest⟩⟩
  · rfl
  · rfl
  · obtain ⟨least, -⟩ := List.min?_eq_some_iff.mp
      (rfl : (first :: second :: rest).min? = some ((second :: rest).foldl min first))
    refine if_neg fun long => short ⟨?_, _, least, long⟩
    simp

namespace Built

variable {transition : Transition} {project : Project} {graph : Graph} {assembly : Assembly}

/-- The joins of a built graph start where the lengths of its cuts say. -/
theorem joinsAt (built : Built transition project graph assembly)
    (whole : project.fade.crossfade = .int crossfade)
    (durations : graph.durations = lengths.map Value.int) (positive : 0 < crossfade)
    {index : Nat} (joined : 0 < index) (within : index < lengths.length) :
    JoinsAt graph index (joinStart crossfade lengths index) := by
  obtain ⟨left, right, passed, offset, videoOp, summed, offsetGiven, videoGiven, present⟩ :=
    built.videoJoin_at joined (by rwa [durations, List.length_map])
  rw [durations, ← List.map_take, Value.sum_int, ← List.sum_eq_foldl] at summed
  rw [whole, ← Except.ok.inj summed, Value.lessMultiple_int] at offsetGiven
  rw [whole, ← Except.ok.inj offsetGiven] at videoGiven
  obtain ⟨name, start⟩ := Transition.offset_of_videoOp videoGiven positive
  refine ⟨_, present, rfl, rfl, ⟨videoOp, rfl, name, start⟩, ?_⟩
  intro other otherIn isJoin same
  -- No two nodes have the key of one join.
  have otherKey : other.key = (.videoJoin, (index : Int), 0) :=
    (Node.key_eq_iff (by decide)).mpr ⟨isJoin, same⟩
  exact Graph.eq_of_key built.nodup_keys otherIn present otherKey

end Built

/-- A build with a crossfade in whole seconds reports it exactly where there are several cuts and
one of them is shorter; where it reports nothing, all joins can be made. -/
theorem judged_of_run_build {existence : ExistenceCheck} {transition : Transition}
    {project : Project} {graph : Graph} {after : Draft}
    (ran : (build existence transition project).run {} = .ok graph after)
    (whole : project.fade.crossfade = .int crossfade) :
    ∃ lengths : List Int, List.Forall₂ Cut.Lasts project.cuts lengths ∧
      graph.durations = lengths.map Value.int ∧ Judged graph crossfade lengths after.warnings := by
  obtain ⟨assembly, built⟩ := built_of_run ran
  obtain ⟨lengths, cutsLast, durations⟩ := built.resolved.cutsLast
  rw [← built.durations_eq] at durations
  have reported : after.warnings = crossfadeWarnings crossfade lengths :=
    warnings_of_run_build ran whole durations
  refine ⟨lengths, cutsLast, durations, ?_⟩
  constructor
  case warned =>
    intro several long
    rw [reported]
    exact crossfadeWarnings_of_long several long
  case silent =>
    intro short
    rw [reported]
    exact crossfadeWarnings_of_short short
  case realisable =>
    intro silent index joined within
    refine realisable_of_short ?_ within
    intro length present
    -- A shorter cut among several would have been reported.
    refine Int.not_lt.mp fun less => ?_
    obtain ⟨_, _, _, warned⟩ := crossfadeWarnings_of_long
      (Nat.lt_of_le_of_lt joined within) ⟨length, present, less⟩
    rw [← reported, silent] at warned
    cases warned
  case joins =>
    intro positive index joined within
    exact built.joinsAt whole durations positive joined within

/-- The sample project with a crossfade that is longer than its second cut. -/
def longFadeProject : Project :=
  { sampleProject with fade := ⟨.int 1, .int 2, .int 6⟩ }

/-- It is built all the same, with the warning that the judgement asks for. -/
theorem judged_longFadeProject : ∃ graph after lengths,
    (build (fun _ _ => .ok true) .plain longFadeProject).run {} = .ok graph after ∧
      graph.durations = [.int 7, .int 5] ∧ graph.durations = lengths.map Value.int ∧
      Judged graph 6 lengths after.warnings := by
  have succeeds : Drafting.succeeds (build (fun _ _ => .ok true) .plain longFadeProject) {}
      (fun graph => graph.durations = [.int 7, .int 5]) = true := by
    decide +kernel
  obtain ⟨graph, after, ran, durations⟩ := exists_of_succeeds succeeds
  obtain ⟨lengths, -, same, judged⟩ := judged_of_run_build ran rfl
  exact ⟨graph, after, lengths, ran, of_decide_eq_true durations, same, judged⟩

end Compilation

end Montage
