import Montage.Compile.Compilation
import Montage.Proofs.Drafting

/-!
# Builds are repeated

What was reported before a build, and which files were asked for, has no part in its graph. A step
that succeeds is repeated by another one (`Drafting.Repeats`) if that succeeds as well on every draft
with the same graph, and gives the same. Main statement: `repeats_build`, that a build is repeated by
the build of the same project wherever the files are found that it found.
-/

namespace Montage

/-- One check finds every file that another one finds. -/
def ExistenceCheck.Covers (wider existence : ExistenceCheck) : Prop :=
  ∀ base id, existence base id = .ok true → wider base id = .ok true

namespace Drafting

variable {α β : Type}

/-- Whatever a step gives for a draft, another step gives for all drafts with the same graph. -/
def Repeats (step again : Drafting α) : Prop :=
  ∀ draft other value after, other.graph = draft.graph → step.run draft = .ok value after →
    ∃ later, again.run other = .ok value later ∧ later.graph = after.graph

theorem repeats_pure (value : α) : Repeats (pure value) (pure value) := by
  intro draft other result after same ran
  obtain ⟨rfl, rfl⟩ := run_pure_eq_ok_iff.mp ran
  exact ⟨other, rfl, same⟩

theorem repeats_throw (failure : Failure) (again : Drafting α) : Repeats (throw failure) again :=
  fun _ _ _ _ _ ran => absurd ran run_throw_ne_ok

theorem Repeats.bind {step again : Drafting α} {next nextAgain : α → Drafting β}
    (first : Repeats step again) (rest : ∀ value, Repeats (next value) (nextAgain value)) :
    Repeats (step >>= next) (again >>= nextAgain) := by
  intro draft other result after same ran
  obtain ⟨value, middle, stepRan, nextRan⟩ := run_bind_eq_ok_iff.mp ran
  obtain ⟨reached, againRan, same⟩ := first _ _ _ _ same stepRan
  obtain ⟨later, nextAgainRan, same⟩ := rest value _ _ _ _ same nextRan
  exact ⟨later, run_bind_eq_ok_iff.mpr ⟨value, reached, againRan, nextAgainRan⟩, same⟩

theorem repeats_lift (operation : Except Failure α) :
    Repeats (liftM operation) (liftM operation) := by
  cases operation with
  | ok value => exact repeats_pure value
  | error failure => exact repeats_throw failure _

theorem repeats_lift_defect (operation : Except Defect α) :
    Repeats (liftM operation : Drafting α) (liftM operation) := by
  cases operation with
  | ok value => exact repeats_pure value
  | error defect => exact repeats_throw (.defect defect) _

theorem repeats_ite {condition : Prop} [Decidable condition] {step other again : Drafting α}
    {otherAgain : Drafting α} (first : Repeats step again) (second : Repeats other otherAgain) :
    Repeats (if condition then step else other) (if condition then again else otherAgain) := by
  split
  · exact first
  · exact second

/-- A refusal in some case is repeated, since only the rest can succeed. -/
theorem repeats_refuse {refused : Prop} [Decidable refused] {failure : Failure}
    {next nextAgain : β → Drafting α} {rest again : Drafting α} (repeated : Repeats rest again) :
    Repeats (if refused then throw failure >>= next else rest)
      (if refused then throw failure >>= nextAgain else again) :=
  repeats_ite (fun _ _ _ _ _ ran => nomatch ran) repeated

theorem repeats_addNode (node : Node) : Repeats (addNode node) (addNode node) := by
  intro draft other position after same ran
  obtain ⟨rfl, rfl⟩ := run_addNode_eq_ok_iff.mp ran
  refine ⟨_, run_addNode_eq_ok_iff.mpr ⟨?_, rfl⟩, ?_⟩
  · rw [same]
  · rw [same]

theorem repeats_report (level : LogLevel) (reporter text : String) :
    Repeats (report level reporter text) (report level reporter text) := by
  intro draft other _ after same ran
  exact ⟨_, rfl, same.trans (graph_of_run_report ran).symm⟩

theorem repeats_noteCheck (base : Path) (id : Value) :
    Repeats (noteCheck base id) (noteCheck base id) := by
  intro draft other _ after same ran
  exact ⟨_, rfl, same.trans (graph_of_run_noteCheck ran).symm⟩

end Drafting

open Drafting

/-! ## The inputs of the cuts -/

namespace CutInputs

variable {existence wider : ExistenceCheck}

/-- A file that was found is found again. -/
theorem repeats_requireSource (covers : wider.Covers existence) (base : Path) (index : Nat)
    (role : SourceRole) (id : Value) :
    Repeats (requireSource existence base index role id)
      (requireSource wider base index role id) := by
  refine (repeats_noteCheck base id).bind fun _ => ?_
  cases asked : existence base id with
  | error failure => exact fun _ _ _ _ _ ran => nomatch ran
  | ok found =>
    cases found with
    | false => exact fun _ _ _ _ _ ran => nomatch ran
    | true =>
      rw [covers base id asked]
      exact repeats_pure _

theorem repeats_resolveTrack (covers : wider.Covers existence) (base : Path) (index : Nat)
    (start duration : Int) (number : Nat) (track : AudioTrack) :
    Repeats (resolveTrack existence base index start duration number track)
      (resolveTrack wider base index start duration number track) := by
  unfold resolveTrack
  refine repeats_refuse ((repeats_lift_defect _).bind fun _ => repeats_refuse ?_)
  refine (repeats_requireSource covers base index _ _).bind fun _ => ?_
  refine repeats_ite ((repeats_lift _).bind fun _ => repeats_refuse ?_) (repeats_refuse ?_)
  · exact (repeats_lift_defect _).bind fun _ => repeats_pure _
  · exact (repeats_lift_defect _).bind fun _ => repeats_pure _

theorem repeats_resolveTracks (covers : wider.Covers existence) (base : Path) (index : Nat)
    (start duration : Int) (number : Nat) (tracks : List AudioTrack) :
    Repeats (resolveTracks existence base index start duration number tracks)
      (resolveTracks wider base index start duration number tracks) := by
  induction tracks generalizing number with
  | nil => exact repeats_pure _
  | cons track tracks ih =>
    exact (repeats_resolveTrack covers base index start duration number track).bind fun _ =>
      (ih (number + 1)).bind fun _ => repeats_pure _

theorem repeats_resolveCut (covers : wider.Covers existence) (base : Path) (index slot : Nat)
    (cut : Cut) :
    Repeats (resolveCut existence base index slot cut) (resolveCut wider base index slot cut) := by
  unfold resolveCut
  refine repeats_refuse ((repeats_lift _).bind fun start => (repeats_lift _).bind fun finish => ?_)
  refine repeats_refuse ((repeats_lift_defect _).bind fun _ => repeats_refuse ?_)
  refine (repeats_requireSource covers base index _ _).bind fun _ => ?_
  refine (repeats_lift_defect _).bind fun _ => ?_
  refine (repeats_resolveTracks covers base index start (finish - start) 1 cut.audio).bind ?_
  exact fun _ => (repeats_report _ _ _).bind fun _ => repeats_pure _

theorem repeats_resolveCuts (covers : wider.Covers existence) (base : Path) (index slot : Nat)
    (cuts : List Cut) :
    Repeats (resolveCuts existence base index slot cuts)
      (resolveCuts wider base index slot cuts) := by
  induction cuts generalizing index slot with
  | nil => exact repeats_pure _
  | cons cut cuts ih =>
    exact (repeats_resolveCut covers base index slot cut).bind fun _ =>
      (ih _ _).bind fun _ => repeats_pure _

theorem repeats_resolve (covers : wider.Covers existence) (project : Project) :
    Repeats (resolve existence project) (resolve wider project) :=
  (repeats_resolveCuts covers project.base 0 0 project.cuts).bind fun _ =>
    (repeats_report _ _ _).bind fun _ => repeats_pure _

end CutInputs

/-! ## The nodes of the graph -/

theorem SegmentStyle.repeats_addAudioFrom (style : SegmentStyle) (cut : CutInputs) (total : Int)
    (track : Nat) (slots : List Int) :
    Repeats (style.addAudioFrom cut total track slots)
      (style.addAudioFrom cut total track slots) := by
  induction slots generalizing track with
  | nil => exact repeats_pure _
  | cons slot slots ih =>
    exact (repeats_lift _).bind fun _ => (repeats_addNode _).bind fun _ =>
      (ih (track + 1)).bind fun _ => repeats_pure _

theorem Segment.repeats_ofCut (style : SegmentStyle) (total : Int) (cut : CutInputs) :
    Repeats (ofCut style total cut) (ofCut style total cut) := by
  have video : Repeats (style.addVideo cut total) (style.addVideo cut total) :=
    (repeats_lift _).bind fun _ => repeats_addNode _
  have mix (sounds : List Nat) : Repeats (addMix cut.index sounds) (addMix cut.index sounds) :=
    repeats_refuse (repeats_addNode _)
  exact video.bind fun _ => (style.repeats_addAudioFrom cut total 0 cut.audio).bind fun _ =>
    (mix _).bind fun _ => repeats_pure _

theorem Compilation.repeats_addSegments (style : SegmentStyle) (total : Int)
    (cuts : List CutInputs) :
    Repeats (addSegments style total cuts) (addSegments style total cuts) := by
  induction cuts with
  | nil => exact repeats_pure _
  | cons cut cuts ih =>
    exact (Segment.repeats_ofCut style total cut).bind fun _ => ih.bind fun _ => repeats_pure _

namespace Composite

variable (crossfade : Value) (transition : Transition)

theorem repeats_join (state : Composite) (segment : Segment) :
    Repeats (join crossfade transition state segment)
      (join crossfade transition state segment) := by
  unfold join
  refine (repeats_lift_defect _).bind fun _ => (repeats_lift_defect _).bind fun _ => ?_
  refine (repeats_addNode _).bind fun _ => (repeats_lift_defect _).bind fun _ => ?_
  refine (repeats_addNode _).bind fun _ => (repeats_report _ _ _).bind fun _ => ?_
  exact (repeats_lift_defect _).bind fun _ => repeats_pure _

theorem repeats_joinAll (state : Composite) (segments : List Segment) :
    Repeats (joinAll crossfade transition state segments)
      (joinAll crossfade transition state segments) := by
  induction segments generalizing state with
  | nil => exact repeats_pure _
  | cons segment segments ih =>
    exact (repeats_join crossfade transition state segment).bind fun next => ih next

theorem repeats_compose (segments : List Segment) :
    Repeats (compose crossfade transition segments) (compose crossfade transition segments) := by
  cases segments with
  | nil => exact repeats_throw _ _
  | cons first rest => exact repeats_joinAll crossfade transition _ rest

end Composite

/-! ## The whole build -/

namespace Compilation

variable {existence wider : ExistenceCheck}

theorem repeats_warnOfLongCrossfade (durations : List Value) (crossfade : Value) :
    Repeats (warnOfLongCrossfade durations crossfade)
      (warnOfLongCrossfade durations crossfade) := by
  unfold warnOfLongCrossfade
  split
  · refine (repeats_lift_defect _).bind fun _ => (repeats_lift_defect _).bind fun _ => ?_
    exact repeats_ite (repeats_report _ _ _) (repeats_pure _)
  · exact repeats_pure _

theorem repeats_beginGraph (windows : List Window) (durations : List Value) (crossfade : Value) :
    Repeats (beginGraph windows durations crossfade)
      (beginGraph windows durations crossfade) := by
  intro draft other _ after _ ran
  cases ran
  exact ⟨_, rfl, rfl⟩

theorem repeats_finishGraph (final : Composite) (total : Value) :
    Repeats (finishGraph final total) (finishGraph final total) := by
  intro draft other graph after same ran
  cases ran
  refine ⟨{ other with graph := { other.graph with
    videoOut := some final.video, audioOut := some final.audio, total := total } }, ?_, ?_⟩
  · show EStateM.Result.ok _ _ = _
    rw [same]
  · show Graph.mk _ _ _ _ _ _ _ = _
    rw [same]

/-- A build is repeated wherever the files are found that it found. -/
theorem repeats_build (covers : wider.Covers existence) (transition : Transition)
    (project : Project) :
    Repeats (build existence transition project) (build wider transition project) := by
  unfold build
  refine repeats_refuse ((repeats_lift _).bind fun _ => (repeats_report _ _ _).bind fun _ => ?_)
  refine (CutInputs.repeats_resolve covers project).bind ?_
  rintro ⟨windows, cuts⟩
  refine (repeats_lift _).bind fun _ => (repeats_warnOfLongCrossfade _ _).bind fun _ => ?_
  refine (repeats_beginGraph _ _ _).bind fun _ => (repeats_addSegments _ _ _).bind fun _ => ?_
  refine (Composite.repeats_compose _ _ _).bind fun _ => (repeats_finishGraph _ _).bind fun _ => ?_
  refine (repeats_lift_defect _).bind ?_
  rintro ⟨video, audio⟩
  refine (repeats_report _ _ _).bind fun _ => (repeats_lift_defect _).bind fun _ => ?_
  exact (repeats_report _ _ _).bind fun _ => repeats_pure _

end Compilation

end Montage
