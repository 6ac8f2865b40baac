import Montage.Proofs.Assembly
import Montage.Proofs.LengthChecks
import Montage.Proofs.RealBounds
import Montage.Proofs.SegmentOps
import Montage.Proofs.UncheckedValues

/-!
# Numbers that are out of range

Where the cuts of a project are resolved and the lengths of its fades are numbers
(`Project.Timed`), arithmetic on them fails in one way only: a real length meets whole seconds that
are out of the range of binary64. The seconds that a build computes with never exceed the length of
all cuts, so that this length is out of range as well. Main statements: `explained_of_checkTotal`,
`explained_of_run_addSegments` and `explained_of_run_compose`, one for each part of a build that
computes.
-/

namespace Montage

open Drafting

variable {base : Path} {project : Project} {graph : Graph} {draft after : Draft}
  {failure : Failure}

/-! ## Numbers -/

section Numbers

variable {a b : Value} {x y : Number} {defect : Defect}

theorem Compilation.number_of_isLength (isNumber : isLength a = true) :
    ∃ x, a.number = .ok x := by
  cases a with
  | int n => exact ⟨_, rfl⟩
  | real x => exact ⟨_, rfl⟩
  | null | bool _ | text _ | list _ | object _ => cases isNumber

theorem Value.lt_of_numbers (first : a.number = .ok x) (second : b.number = .ok y) :
    a.lt b = .ok (x.lt y) := by
  rw [Value.lt, first, second]
  rfl

theorem Value.le_of_numbers (first : a.number = .ok x) (second : b.number = .ok y) :
    a.le b = .ok (x.le y) := by
  rw [Value.le, first, second]
  rfl

theorem Value.number_ofNumber (x : Number) : (ofNumber x).number = .ok x := by
  rw [Value.number, Value.number?_ofNumber]

theorem Value.number_of_sub {difference : Value} (given : a.sub b = .ok difference) :
    ∃ x, difference.number = .ok x := by
  obtain ⟨_, _, given⟩ := except_bind_eq_ok_iff.mp given
  obtain ⟨_, _, given⟩ := except_bind_eq_ok_iff.mp given
  obtain ⟨left, _, given⟩ := except_bind_eq_ok_iff.mp given
  obtain rfl := except_pure_eq_ok_iff.mp given
  exact ⟨left, number_ofNumber left⟩

theorem Value.number_of_lessMultiple {count : Int} {rest : Value}
    (given : a.lessMultiple b count = .ok rest) : ∃ x, rest.number = .ok x := by
  obtain ⟨_, _, given⟩ := except_bind_eq_ok_iff.mp given
  obtain ⟨_, _, given⟩ := except_bind_eq_ok_iff.mp given
  obtain ⟨left, _, given⟩ := except_bind_eq_ok_iff.mp given
  obtain rfl := except_pure_eq_ok_iff.mp given
  exact ⟨left, number_ofNumber left⟩

theorem Value.max_of_numbers (first : a.number = .ok x) (second : b.number = .ok y) :
    ∃ greater, a.max b = .ok greater := by
  rw [Value.max, Value.lt_of_numbers first second]
  exact ⟨_, rfl⟩

/-- A length is taken off whole seconds unless it is real and these are out of range. -/
theorem Value.sub_eq_error {n : Int} {length : Value}
    (isNumber : Compilation.isLength length = true)
    (failed : (Value.int n).sub length = .error defect) :
    (∃ x, length = .real x) ∧ Number.wholeToReal n = .error defect := by
  cases length with
  | int m => cases failed
  | real x =>
    refine ⟨⟨x, rfl⟩, ?_⟩
    rcases except_bind_eq_error_iff.mp failed with never | ⟨_, counted, failed⟩
    · cases never
    cases counted
    rcases except_bind_eq_error_iff.mp failed with never | ⟨_, counted, failed⟩
    · cases never
    cases counted
    exact except_bind_pure_eq_error_iff.mp (except_bind_pure_eq_error_iff.mp failed)
  | null | bool _ | text _ | list _ | object _ => cases isNumber

/-- Crossfades are taken off whole seconds unless they are real, and the seconds or the count of
joins are out of range. -/
theorem Value.lessMultiple_eq_error {n count : Int} {length : Value}
    (isNumber : Compilation.isLength length = true)
    (failed : (Value.int n).lessMultiple length count = .error defect) :
    (∃ x, length = .real x) ∧
      (Number.wholeToReal count = .error defect ∨ Number.wholeToReal n = .error defect) := by
  cases length with
  | int m => cases failed
  | real x =>
    refine ⟨⟨x, rfl⟩, ?_⟩
    rcases except_bind_eq_error_iff.mp failed with failed | ⟨steps, multiplied, failed⟩
    · rcases except_bind_eq_error_iff.mp failed with never | ⟨_, counted, failed⟩
      · cases never
      cases counted
      exact .inl (except_bind_pure_eq_error_iff.mp failed)
    · -- The product is real, so the seconds are converted as well.
      obtain ⟨_, counted, product⟩ := except_bind_eq_ok_iff.mp multiplied
      cases counted
      obtain ⟨_, _, product⟩ := except_bind_eq_ok_iff.mp product
      obtain rfl := except_pure_eq_ok_iff.mp product
      rcases except_bind_eq_error_iff.mp failed with never | ⟨_, counted, failed⟩
      · cases never
      cases counted
      exact .inr (except_bind_pure_eq_error_iff.mp (except_bind_pure_eq_error_iff.mp failed))
  | null | bool _ | text _ | list _ | object _ => cases isNumber

end Numbers

/-! ## Checks -/

namespace Compilation

/-- A fade length is refused as such, or it is too long for the message. -/
theorem explained_of_checkLength {field : FadeField} {length : Value}
    (inFade : length ∈ project.fade.lengths) (failed : checkLength field length = .error failure) :
    Explained project graph failure := by
  unfold checkLength at failed
  cases isNumber : isLength length with
  | false =>
    rw [isNumber] at failed
    cases failed
    exact Explained.naming (.edit _) (.longFade inFade (.inl isNumber))
  | true =>
    obtain ⟨x, counted⟩ := number_of_isLength isNumber
    have compared := Value.lt_of_numbers counted (Value.number_int 0)
    rw [isNumber, compared] at failed
    cases negative : x.lt (.whole 0) with
    | false =>
      rw [negative] at failed
      cases failed
    | true =>
      rw [negative] at failed compared
      cases failed
      exact Explained.naming (.edit _) (.longFade inFade (.inr compared))

theorem explained_of_checkFade (failed : checkFade project.fade = .error failure) :
    Explained project graph failure := by
  unfold checkFade at failed
  rcases except_bind_eq_error_iff.mp failed with fadeIn | ⟨_, _, failed⟩
  · exact explained_of_checkLength List.mem_cons_self fadeIn
  rcases except_bind_eq_error_iff.mp failed with fadeOut | ⟨_, _, crossfade⟩
  · exact explained_of_checkLength (List.mem_cons_of_mem _ List.mem_cons_self) fadeOut
  · exact explained_of_checkLength (List.mem_of_getElem? (i := 2) rfl) crossfade

end Compilation

/-! ## Lengths -/

/-- What is known of a project once its fades are checked and its cuts are resolved: the lengths of
the cuts in seconds, and that the lengths of its fades are numbers. -/
structure Project.Timed (project : Project) (lengths : List Int) : Prop where
  lasts : project.cuts.mapM Cut.length = .ok lengths
  positive : ∀ length ∈ lengths, 0 < length
  fadeIn : Compilation.isLength project.fade.fadeIn = true
  fadeOut : Compilation.isLength project.fade.fadeOut = true
  crossfade : Compilation.isLength project.fade.crossfade = true

theorem Cut.together_cons (length : Int) (lengths : List Int) :
    together (length :: lengths) = length + together lengths :=
  rfl

theorem length_le_together {lengths : List Int} (positive : ∀ length ∈ lengths, 0 < length) :
    (lengths.length : Int) ≤ Cut.together lengths := by
  induction lengths with
  | nil => exact Int.le_refl 0
  | cons length lengths ih =>
    obtain ⟨here, later⟩ := List.forall_mem_cons.mp positive
    have rest := ih later
    rw [List.length_cons, Cut.together_cons]
    omega

theorem le_together_of_mem {lengths : List Int} (positive : ∀ length ∈ lengths, 0 < length)
    {length : Int} (present : length ∈ lengths) : length ≤ Cut.together lengths := by
  induction lengths with
  | nil => cases present
  | cons first lengths ih =>
    obtain ⟨here, later⟩ := List.forall_mem_cons.mp positive
    rw [Cut.together_cons]
    rcases List.mem_cons.mp present with rfl | inRest
    · have rest := length_le_together later
      omega
    · have rest := ih later inRest
      omega

namespace CutInputs

theorem CutsResolved.lengths {index slot : Nat} {cuts : List Cut} {windows : List Window}
    {inputs : List CutInputs} (resolved : CutsResolved base index slot cuts windows inputs) :
    ∃ lengths, cuts.mapM Cut.length = .ok lengths ∧
      inputs.map (·.duration) = lengths.map Value.int ∧ ∀ length ∈ lengths, 0 < length := by
  suffices each : ∃ lengths, List.Forall₂ (fun cut length => Cut.length cut = .ok length) cuts
      lengths ∧ inputs.map (·.duration) = lengths.map Value.int ∧
      ∀ length ∈ lengths, 0 < length by
    obtain ⟨lengths, each, rest⟩ := each
    exact ⟨lengths, except_mapM_eq_ok_iff.mpr each, rest⟩
  induction resolved with
  | nil => exact ⟨[], .nil, rfl, List.forall_mem_nil _⟩
  | @cons _ _ cut start duration _ _ _ _ _ first _ ih =>
    obtain ⟨lengths, each, durations, positive⟩ := ih
    obtain ⟨_, _, _, _, _, rfl⟩ := first.rest
    have length : cut.length = .ok duration := by
      rw [Cut.length, first.starts, first.ends]
      exact congrArg Except.ok (by omega)
    exact ⟨duration :: lengths, .cons length each,
      by rw [List.map_cons, List.map_cons, durations],
      List.forall_mem_cons.mpr ⟨first.lasts, positive⟩⟩

end CutInputs

namespace Project.Timed

variable {lengths : List Int}

/-- Seconds of the timeline that are out of range. -/
theorem explained_of_range (timed : project.Timed lengths)
    (real : ∃ x, project.fade.fadeOut = .real x ∨ project.fade.crossfade = .real x) {n : Int}
    (nonneg : 0 ≤ n) (le : n ≤ Cut.together lengths) {defect : Defect}
    (failed : Number.wholeToReal n = .error defect) : Explained project graph (.defect defect) := by
  obtain ⟨x, real⟩ := real
  obtain rfl := Number.wholeToReal_eq_error failed
  exact .defect (.range timed.lasts real (Number.wholeToReal_error_of_le nonneg le failed))

theorem explained_of_checkTotal (timed : project.Timed lengths) (present : lengths ≠ [])
    (failed : Compilation.checkTotal (lengths.map Value.int) project.fade.crossfade =
      .error failure) : Explained project graph failure := by
  have sum : Value.sum (lengths.map Value.int) = .ok (.int (Cut.together lengths)) := by
    rw [Value.sum_int, ← List.sum_eq_foldl]
    rfl
  have total : Timeline.totalOf (lengths.map Value.int) project.fade.crossfade =
      (Value.int (Cut.together lengths)).lessMultiple project.fade.crossfade
        (lengths.length - 1) := by
    rw [Timeline.totalOf, if_neg (by simpa using present), sum, List.length_map]
    rfl
  have count := length_le_together timed.positive
  have some := List.length_pos_iff.mpr present
  unfold Compilation.checkTotal at failed
  rcases except_bind_eq_error_iff.mp failed with refused | ⟨remaining, given, failed⟩
  · obtain ⟨_, subtracted, rfl⟩ := liftM_defect_eq_error_iff.mp refused
    rw [total] at subtracted
    obtain ⟨⟨x, real⟩, range⟩ := Value.lessMultiple_eq_error timed.crossfade subtracted
    rcases range with joins | all
    · exact timed.explained_of_range ⟨x, .inr real⟩ (by omega) (by omega) joins
    · exact timed.explained_of_range ⟨x, .inr real⟩ (by omega) (Int.le_refl _) all
  have known := liftM_defect_eq_ok_iff.mp given
  obtain ⟨left, counted⟩ := Value.number_of_lessMultiple (total ▸ known)
  have compared := Value.le_of_numbers counted (Value.number_int 0)
  rw [compared] at failed
  rcases except_bind_eq_error_iff.mp failed with never | ⟨nothing, same, failed⟩
  · cases never
  cases same
  cases nothing : left.le (.whole 0) with
  | false =>
    rw [nothing] at failed
    cases failed
  | true =>
    rw [nothing, sum] at failed
    rw [nothing] at compared
    cases failed
    refine Explained.naming (Explained.naming (.edit _) fun long => ?_) fun long => ?_
    · cases long with
      | int long => exact .total timed.lasts known compared (.inr long)
    · exact .total timed.lasts known compared (.inl long)

end Project.Timed

/-! ## Warnings -/

namespace Compilation

/-- Of whole numbers the shortest length is the least one. -/
theorem shortest_int (first : Int) (rest : List Int) :
    shortest (.int first) (rest.map Value.int) = .ok (.int (rest.foldl min first)) := by
  unfold shortest
  induction rest generalizing first with
  | nil => rfl
  | cons length rest ih =>
    rw [List.map_cons, List.foldlM_cons, Value.lt_int, List.foldl_cons]
    by_cases less : length < first
    · rw [decide_eq_true less, Int.min_eq_right (Int.le_of_lt less)]
      exact ih length
    · rw [decide_eq_false less, Int.min_eq_left (Int.not_lt.mp less)]
      exact ih first

theorem run_warnOfLongCrossfade_ne_error {lengths : List Int} {crossfade : Value}
    (isNumber : isLength crossfade = true) :
    (warnOfLongCrossfade (lengths.map Value.int) crossfade).run draft ≠ .error failure after := by
  intro failed
  unfold warnOfLongCrossfade at failed
  obtain ⟨x, counted⟩ := number_of_isLength isNumber
  rcases lengths with _ | ⟨first, _ | ⟨second, rest⟩⟩
  · exact run_pure_ne_error failed
  · exact run_pure_ne_error failed
  · have given := shortest_int first (second :: rest)
    rcases run_bind_eq_error_iff.mp failed with refused | ⟨_, _, same, failed⟩
    · obtain ⟨_, refused, _⟩ := run_lift_defect_eq_error_iff.mp refused
      rw [← List.map_cons, given] at refused
      cases refused
    obtain ⟨same, rfl⟩ := run_lift_defect_eq_ok_iff.mp same
    rw [← List.map_cons, given] at same
    cases same
    rcases run_bind_eq_error_iff.mp failed with refused | ⟨warns, _, _, failed⟩
    · obtain ⟨_, refused, _⟩ := run_lift_defect_eq_error_iff.mp refused
      rw [Value.lt_of_numbers (Value.number_int _) counted] at refused
      cases refused
    cases warns with
    | false => exact run_pure_ne_error failed
    | true => cases failed

end Compilation

/-! ## Segments -/

/-- Only a fade that does not start with its segment asks for the length of it. -/
theorem Effect.fadeOps_eq_error {kind : StreamKind} {n : Int} {length direction : Value}
    {defect : Defect} (isNumber : Compilation.isLength length = true)
    (failed : fadeOps kind (.int n) length direction = .error defect) :
    direction ≠ .text "in" ∧ (∃ x, length = .real x) ∧ Number.wholeToReal n = .error defect := by
  obtain ⟨x, counted⟩ := Compilation.number_of_isLength isNumber
  unfold fadeOps at failed
  rw [Value.le_of_numbers counted (Value.number_int 0)] at failed
  rcases except_bind_eq_error_iff.mp failed with never | ⟨nothing, _, failed⟩
  · cases never
  cases nothing with
  | true => cases failed
  | false =>
    rw [if_neg Bool.false_ne_true] at failed
    dsimp only at failed
    split at failed
    · cases failed
    · next other =>
      refine ⟨other, ?_⟩
      rcases except_bind_eq_error_iff.mp failed with late | ⟨start, taken, failed⟩
      · exact Value.sub_eq_error isNumber late
      · -- What is left of the length is a number, which can be compared with zero.
        obtain ⟨y, startCounted⟩ := Value.number_of_sub taken
        obtain ⟨greater, compared⟩ := Value.max_of_numbers (Value.number_int 0) startCounted
        rw [compared] at failed
        cases failed

namespace SegmentStyle

theorem edgeFade_eq_error {kind : StreamKind} {n : Int} {length : Value} {direction : String}
    (isNumber : Compilation.isLength length = true)
    (failed : edgeFade kind (.int n) length direction = .error failure) :
    direction ≠ "in" ∧ (∃ x, length = .real x) ∧
      ∃ defect, Number.wholeToReal n = .error defect ∧ .defect defect = failure := by
  unfold edgeFade at failed
  rw [EffectRegistry.standard_apply_fade] at failed
  obtain ⟨defect, refused, same⟩ := liftM_defect_eq_error_iff.mp failed
  obtain ⟨other, real, range⟩ := Effect.fadeOps_eq_error isNumber refused
  refine ⟨?_, real, defect, range, same⟩
  rintro rfl
  exact other rfl

end SegmentStyle

/-- The inputs of a cut that lasts for some of `total` seconds and has what its sounds need. -/
structure CutInputs.Ready (cut : CutInputs) (total : Int) : Prop where
  duration : ∃ length, cut.duration = .int length ∧ 0 ≤ length ∧ length ≤ total
  offsets : cut.audio.length ≤ cut.offsets.length
  volumes : cut.audio.length ≤ cut.volumes.length

theorem CutInputs.CutsResolved.ready {index slot : Nat} {cuts : List Cut} {windows : List Window}
    {inputs : List CutInputs} {lengths : List Int}
    (resolved : CutsResolved base index slot cuts windows inputs)
    (durations : inputs.map (·.duration) = lengths.map Value.int)
    (positive : ∀ length ∈ lengths, 0 < length) :
    ∀ cut ∈ inputs, cut.Ready (Cut.together lengths) := by
  have sounds : ∀ cut ∈ inputs, cut.audio.length ≤ cut.offsets.length ∧
      cut.audio.length ≤ cut.volumes.length := by
    clear durations positive
    induction resolved with
    | nil => exact List.forall_mem_nil _
    | cons first _ ih =>
      obtain ⟨_, _, _, _, _, rfl⟩ := first.rest
      refine List.forall_mem_cons.mpr ⟨?_, ih⟩
      simp
  intro cut present
  have listed : cut.duration ∈ lengths.map Value.int := by
    rw [← durations]
    exact List.mem_map_of_mem present
  obtain ⟨length, lengthIn, same⟩ := List.mem_map.mp listed
  obtain ⟨offsets, volumes⟩ := sounds cut present
  exact ⟨⟨length, same.symm, Int.le_of_lt (positive length lengthIn),
    le_together_of_mem positive lengthIn⟩, offsets, volumes⟩

namespace Project.Timed

variable {lengths : List Int}

theorem explained_of_edgeFades (timed : project.Timed lengths) {kind : StreamKind} {n : Int}
    {index total : Int} (nonneg : 0 ≤ n) (le : n ≤ Cut.together lengths)
    (failed : (SegmentStyle.ofProject project).edgeFades kind (.int n) index total =
      .error failure) : Explained project graph failure := by
  rw [SegmentStyle.edgeFades_eq] at failed
  rcases except_bind_eq_error_iff.mp failed with first | ⟨_, _, failed⟩
  · split at first
    · obtain ⟨other, _⟩ := SegmentStyle.edgeFade_eq_error timed.fadeIn first
      exact absurd rfl other
    · cases first
  · have last := except_bind_pure_eq_error_iff.mp failed
    split at last
    · obtain ⟨_, ⟨x, real⟩, defect, range, rfl⟩ :=
        SegmentStyle.edgeFade_eq_error timed.fadeOut last
      exact timed.explained_of_range ⟨x, .inl real⟩ nonneg le range
    · cases last

theorem explained_of_run_addVideo (timed : project.Timed lengths)
    (framed : project.frame = [] ∨ ∃ width height, project.frame = [width, height])
    {cut : CutInputs} {total : Int} (ready : cut.Ready (Cut.together lengths))
    (failed : ((SegmentStyle.ofProject project).addVideo cut total).run draft =
      .error failure after) : Explained project graph failure := by
  obtain ⟨length, duration, nonneg, le⟩ := ready.duration
  rcases run_bind_eq_error_iff.mp failed with refused | ⟨_, _, _, never⟩
  · obtain ⟨made, _⟩ := run_lift_eq_error_iff.mp refused
    have ops := except_bind_pure_eq_error_iff.mp made
    rcases except_bind_eq_error_iff.mp ops with frame | ⟨_, _, ops⟩
    · unfold SegmentStyle.frameOps SegmentStyle.ofProject at frame
      rcases framed with none | ⟨width, height, sides⟩
      · rw [none] at frame
        cases frame
      · rw [sides] at frame
        cases frame
    · have fades := except_bind_pure_eq_error_iff.mp ops
      rw [duration] at fades
      exact timed.explained_of_edgeFades nonneg le fades
  · cases never

theorem explained_of_audioNode (timed : project.Timed lengths) {cut : CutInputs} {total : Int}
    (ready : cut.Ready (Cut.together lengths)) {track : Nat} (within : track < cut.audio.length)
    {slot : Int}
    (failed : (SegmentStyle.ofProject project).audioNode cut total track slot = .error failure) :
    Explained project graph failure := by
  obtain ⟨length, duration, nonneg, le⟩ := ready.duration
  have offsetAt := List.getElem?_eq_getElem (Nat.lt_of_lt_of_le within ready.offsets)
  have volumeAt := List.getElem?_eq_getElem (Nat.lt_of_lt_of_le within ready.volumes)
  unfold SegmentStyle.audioNode at failed
  rw [offsetAt, volumeAt] at failed
  have ops := except_bind_pure_eq_error_iff.mp failed
  unfold SegmentStyle.audioOps at ops
  rw [duration, EffectRegistry.standard_apply_audioOffset,
    EffectRegistry.standard_apply_volume] at ops
  rcases except_bind_eq_error_iff.mp ops with never | ⟨_, _, ops⟩
  · cases never
  rcases except_bind_eq_error_iff.mp ops with never | ⟨_, _, ops⟩
  · cases never
  · exact timed.explained_of_edgeFades nonneg le (except_bind_pure_eq_error_iff.mp ops)

theorem explained_of_run_addAudioFrom (timed : project.Timed lengths) {cut : CutInputs}
    {total : Int} (ready : cut.Ready (Cut.together lengths)) {track : Nat} {slots : List Int}
    (within : track + slots.length ≤ cut.audio.length)
    (failed : ((SegmentStyle.ofProject project).addAudioFrom cut total track slots).run draft =
      .error failure after) : Explained project graph failure := by
  induction slots generalizing track draft with
  | nil => exact absurd failed run_pure_ne_error
  | cons slot slots ih =>
    rw [List.length_cons] at within
    unfold SegmentStyle.addAudioFrom at failed
    rcases run_bind_eq_error_iff.mp failed with refused | ⟨_, _, _, failed⟩
    · obtain ⟨made, _⟩ := run_lift_eq_error_iff.mp refused
      exact timed.explained_of_audioNode ready (by omega) made
    rcases run_bind_eq_error_iff.mp failed with never | ⟨_, _, _, failed⟩
    · cases never
    exact ih (by omega) (run_bind_pure_eq_error_iff.mp failed)

theorem explained_of_run_ofCut (timed : project.Timed lengths)
    (framed : project.frame = [] ∨ ∃ width height, project.frame = [width, height])
    {cut : CutInputs} {total : Int} (ready : cut.Ready (Cut.together lengths))
    (failed : (Segment.ofCut (SegmentStyle.ofProject project) total cut).run draft =
      .error failure after) : Explained project graph failure := by
  rcases run_bind_eq_error_iff.mp failed with picture | ⟨_, _, _, failed⟩
  · exact timed.explained_of_run_addVideo framed ready picture
  rcases run_bind_eq_error_iff.mp failed with sounds | ⟨_, _, _, failed⟩
  · exact timed.explained_of_run_addAudioFrom ready (by omega) sounds
  rcases run_refuse_eq_error_iff.mp (run_bind_pure_eq_error_iff.mp failed) with
    ⟨_, rfl, _⟩ | ⟨_, never⟩
  · exact .edit _
  · cases never

theorem explained_of_run_addSegments (timed : project.Timed lengths)
    (framed : project.frame = [] ∨ ∃ width height, project.frame = [width, height])
    {cuts : List CutInputs} {total : Int} (ready : ∀ cut ∈ cuts, cut.Ready (Cut.together lengths))
    (failed : (Compilation.addSegments (SegmentStyle.ofProject project) total cuts).run draft =
      .error failure after) : Explained project graph failure := by
  induction cuts generalizing draft with
  | nil => exact absurd failed run_pure_ne_error
  | cons cut cuts ih =>
    obtain ⟨here, later⟩ := List.forall_mem_cons.mp ready
    rcases run_bind_eq_error_iff.mp failed with one | ⟨_, _, _, failed⟩
    · exact timed.explained_of_run_ofCut framed here one
    · exact ih later (run_bind_pure_eq_error_iff.mp failed)

end Project.Timed

/-! ## Joins -/

namespace Transition

variable {transition : Transition} {crossfade offset : Value} {defect : Defect}

theorem videoOp_ne_error (isNumber : Compilation.isLength crossfade = true) :
    transition.videoOp crossfade offset ≠ .error defect := by
  intro failed
  obtain ⟨x, counted⟩ := Compilation.number_of_isLength isNumber
  unfold videoOp at failed
  rw [Value.le_of_numbers counted (Value.number_int 0)] at failed
  rcases except_bind_eq_error_iff.mp failed with never | ⟨straight, _, failed⟩
  · cases never
  · cases straight <;> cases failed

theorem audioOp_ne_error (isNumber : Compilation.isLength crossfade = true) :
    audioOp crossfade ≠ .error defect := by
  intro failed
  obtain ⟨x, counted⟩ := Compilation.number_of_isLength isNumber
  unfold audioOp at failed
  rw [Value.le_of_numbers counted (Value.number_int 0)] at failed
  rcases except_bind_eq_error_iff.mp failed with never | ⟨straight, _, failed⟩
  · cases never
  · cases straight <;> cases failed

end Transition

/-- Every cut has a segment that lasts as long. -/
theorem Compilation.durations_of_run_addSegments {style : SegmentStyle} {total : Int}
    {cuts : List CutInputs} {segments : List Segment}
    (added : (addSegments style total cuts).run draft = .ok segments after) :
    segments.map (·.duration) = cuts.map (·.duration) := by
  induction cuts generalizing draft segments with
  | nil =>
    obtain ⟨rfl, rfl⟩ := of_run_addSegments_nil added
    rfl
  | cons cut cuts ih =>
    obtain ⟨segment, others, middle, one, more, rfl⟩ := steps_of_run_addSegments added
    obtain ⟨_, _, _, _, _, _, _, duration⟩ := Segment.parts_of_run_ofCut one
    rw [List.map_cons, List.map_cons, duration, ih more]

namespace Project.Timed

variable {lengths : List Int} {transition : Transition} {state : Composite}

theorem explained_of_run_join (timed : project.Timed lengths) {segment : Segment} {n m : Int}
    (elapsed : state.elapsed = .int n) (nonneg : 0 ≤ n) (le : n ≤ Cut.together lengths)
    (duration : segment.duration = .int m) (positive : 0 ≤ segment.index)
    (within : segment.index ≤ Cut.together lengths)
    (failed : (Composite.join project.fade.crossfade transition state segment).run draft =
      .error failure after) : Explained project graph failure := by
  unfold Composite.join at failed
  rw [elapsed, duration] at failed
  rcases run_bind_eq_error_iff.mp failed with refused | ⟨_, _, _, failed⟩
  · obtain ⟨_, taken, rfl, _⟩ := run_lift_defect_eq_error_iff.mp refused
    obtain ⟨⟨x, real⟩, range⟩ := Value.lessMultiple_eq_error timed.crossfade taken
    rcases range with count | seconds
    · exact timed.explained_of_range ⟨x, .inr real⟩ positive within count
    · exact timed.explained_of_range ⟨x, .inr real⟩ nonneg le seconds
  rcases run_bind_eq_error_iff.mp failed with refused | ⟨_, _, _, failed⟩
  · obtain ⟨_, given, _⟩ := run_lift_defect_eq_error_iff.mp refused
    exact absurd given (Transition.videoOp_ne_error timed.crossfade)
  rcases run_bind_eq_error_iff.mp failed with never | ⟨_, _, _, failed⟩
  · cases never
  rcases run_bind_eq_error_iff.mp failed with refused | ⟨_, _, _, failed⟩
  · obtain ⟨_, given, _⟩ := run_lift_defect_eq_error_iff.mp refused
    exact absurd given (Transition.audioOp_ne_error timed.crossfade)
  rcases run_bind_eq_error_iff.mp failed with never | ⟨_, _, _, failed⟩
  · cases never
  rcases run_bind_eq_error_iff.mp failed with never | ⟨_, _, _, failed⟩
  · cases never
  cases failed

/-- The seconds that have gone by stay within the timeline. -/
theorem explained_of_run_joinAll (timed : project.Timed lengths) {segments : List Segment}
    {n : Int} {rest : List Int} (elapsed : state.elapsed = .int n) (nonneg : 0 ≤ n)
    (durations : segments.map (·.duration) = rest.map Value.int)
    (positive : ∀ length ∈ rest, 0 < length) (le : n + Cut.together rest ≤ Cut.together lengths)
    (indices : ∀ segment ∈ segments, 0 ≤ segment.index ∧ segment.index ≤ Cut.together lengths)
    (failed : (Composite.joinAll project.fade.crossfade transition state segments).run draft =
      .error failure after) : Explained project graph failure := by
  induction segments generalizing state n rest draft with
  | nil => exact absurd failed run_pure_ne_error
  | cons segment segments ih =>
    obtain ⟨⟨first, last⟩, later⟩ := List.forall_mem_cons.mp indices
    cases rest with
    | nil => cases durations
    | cons length rest =>
      obtain ⟨(duration : segment.duration = .int length), others⟩ := List.cons.inj durations
      obtain ⟨lengthPositive, restPositive⟩ := List.forall_mem_cons.mp positive
      have restSum := length_le_together restPositive
      rw [Cut.together_cons] at le
      rcases run_bind_eq_error_iff.mp failed with one | ⟨next, middle, joined, more⟩
      · exact timed.explained_of_run_join elapsed nonneg (by omega) duration first last one
      · obtain ⟨_, _, _, sum, _, _, _, added, _, rfl⟩ := Composite.push_of_run_join joined
        rw [elapsed, duration, Value.add_int] at added
        cases added
        exact ih rfl (by omega) others restPositive (by omega) later more

theorem explained_of_run_compose (timed : project.Timed lengths) {segments : List Segment}
    (durations : segments.map (·.duration) = lengths.map Value.int)
    (indices : ∀ segment ∈ segments, 0 ≤ segment.index ∧ segment.index ≤ Cut.together lengths)
    (failed : (Composite.compose project.fade.crossfade transition segments).run draft =
      .error failure after) : Explained project graph failure := by
  cases segments with
  | nil =>
    cases failed
    exact .edit _
  | cons first rest =>
    cases known : lengths with
    | nil =>
      rw [known] at durations
      cases durations
    | cons length others =>
      rw [known] at durations
      obtain ⟨duration, restDurations⟩ := List.cons.inj durations
      have elapsed : (Composite.ofSegment first).elapsed = .int length := duration
      have positive := timed.positive
      rw [known] at positive
      obtain ⟨lengthPositive, othersPositive⟩ := List.forall_mem_cons.mp positive
      have all : length + Cut.together others = Cut.together lengths := by
        rw [known, Cut.together_cons]
      exact timed.explained_of_run_joinAll elapsed (Int.le_of_lt lengthPositive) restDurations
        othersPositive (Int.le_of_eq all) (List.forall_mem_cons.mp indices).2 failed

end Project.Timed

end Montage
