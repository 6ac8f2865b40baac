import Montage.Compile.Compilation
import Montage.Proofs.Drafting

/-!
# Lengths that pass the checks

A project is refused when the length of a fade is no number or counts as negative, and when the
crossfades use up the timeline. Both checks refuse by a comparison that came out true. Main
statements: `checkFade_eq_ok_iff` and `checkTotal_eq_ok_iff`, which say what passes.
-/

namespace Montage

/-- The lengths that are checked before anything is resolved. -/
def FadeLengths.lengths (fade : FadeLengths) : List Value :=
  [fade.fadeIn, fade.fadeOut, fade.crossfade]

namespace Compilation

theorem checkLength_eq_ok_iff {field : FadeField} {value : Value} :
    checkLength field value = .ok () ↔ isLength value ∧ value.lt (.int 0) = .ok false := by
  unfold checkLength
  cases isLength value with
  | false => exact iff_of_false nofun nofun
  | true =>
    simp only [Bool.not_true, Bool.false_eq_true, if_false, true_and]
    rw [except_bind_eq_ok_iff]
    constructor
    · rintro ⟨negative, compared, passed⟩
      rw [liftM_defect_eq_ok_iff] at compared
      cases negative with
      | false => exact compared
      | true => cases passed
    · exact fun compared => ⟨false, liftM_defect_eq_ok_iff.mpr compared, rfl⟩

theorem checkFade_eq_ok_iff {fade : FadeLengths} :
    checkFade fade = .ok () ↔ checkLength .fadeIn fade.fadeIn = .ok () ∧
      checkLength .fadeOut fade.fadeOut = .ok () ∧
      checkLength .crossfade fade.crossfade = .ok () := by
  constructor
  · intro passed
    obtain ⟨⟨⟩, fadeIn, passed⟩ := except_bind_eq_ok_iff.mp passed
    obtain ⟨⟨⟩, fadeOut, crossfade⟩ := except_bind_eq_ok_iff.mp passed
    exact ⟨fadeIn, fadeOut, crossfade⟩
  · rintro ⟨fadeIn, fadeOut, crossfade⟩
    rw [checkFade, fadeIn, fadeOut]
    exact crossfade

/-- A total passes when no comparison says that nothing is left. -/
theorem checkTotal_eq_ok_iff {durations : List Value} {crossfade total : Value} :
    checkTotal durations crossfade = .ok total ↔
      Timeline.totalOf durations crossfade = .ok total ∧ total.le (.int 0) = .ok false := by
  unfold checkTotal
  rw [except_bind_eq_ok_iff]
  constructor
  · rintro ⟨value, given, passed⟩
    obtain ⟨nothing, compared, passed⟩ := except_bind_eq_ok_iff.mp passed
    rw [liftM_defect_eq_ok_iff] at given compared
    cases nothing with
    | false =>
      obtain rfl := except_pure_eq_ok_iff.mp passed
      exact ⟨given, compared⟩
    | true =>
      obtain ⟨sum, _, passed⟩ := except_bind_eq_ok_iff.mp passed
      cases passed
  · rintro ⟨given, compared⟩
    refine ⟨total, liftM_defect_eq_ok_iff.mpr given, except_bind_eq_ok_iff.mpr ?_⟩
    exact ⟨false, liftM_defect_eq_ok_iff.mpr compared, rfl⟩

end Compilation

end Montage
