import Montage.Proofs.EndlessMarks
import Montage.Proofs.PrintedTimes

/-!
# Timecodes as progress marks

Every timecode has the form of a progress mark. A mark is read as a binary64 number, but a whole
number of at most 53 binary digits is not rounded, so a timecode of so few seconds stands for the
same time whichever way it is read. Main statement: `marks_of_parse`.
-/

namespace Montage

namespace Binary64

/-- Few digits without an exponent are read as the whole number that they denote. -/
theorem ofDecimal_of_small {n : Nat} (small : n ≤ Nat.pow 2 53) :
    ofDecimal false n 0 = .finite false (n * one) (representable_mul_one small) := by
  rcases Nat.eq_zero_or_pos n with rfl | positive
  · simp only [ofDecimal, if_true, ofUnitRatio_zero_left, Nat.zero_mul]
  · rw [← ofInt_natCast_of_small small]
    have nonneg : ¬ (n : Int) < 0 := Int.not_lt.mpr (Int.natCast_nonneg n)
    have size : ¬ ((n.log2 / 3 : Nat) : Int) + 0 < -400 := by omega
    rw [ofDecimal, if_neg positive.ne', if_neg (by decide), if_neg size, ofInt,
      decide_eq_false nonneg, Int.natAbs_natCast]
    simp

/-- Whole numbers are added without rounding as long as their sum is small. -/
theorem add_of_small {m n : Nat} (first : Representable (m * one))
    (second : Representable (n * one)) (small : m + n ≤ Nat.pow 2 53) :
    (finite false (m * one) first).add (finite false (n * one) second) =
      finite false ((m + n) * one) (representable_mul_one small) := by
  have exact := representable_mul_one small
  have sum : ((m * one : Nat) : Int) + (n * one : Nat) = ((m + n) * one : Nat) := by
    rw [Nat.add_mul, Int.natCast_add]
  have nonneg : ¬ (((m + n) * one : Nat) : Int) < 0 := Int.not_lt.mpr (Int.natCast_nonneg _)
  simp only [add, Bool.false_eq_true, if_false, sum, Int.natAbs_natCast, decide_eq_false nonneg,
    Bool.and_self, ite_self]
  rw [ofUnitRatio_of_le false exact (Nat.le_refl _)]
  simp only [nearestUnits_of_representable exact]

end Binary64

namespace Timecode

open Text

variable {text : String} {clock : Clock}

/-- Whether a text is read as a progress mark, and stands for just so many seconds as one. -/
def Marks (text : String) (seconds : Int) : Prop :=
  ∃ time, parseMark (.text text) = .ok time ∧ time.toRat? = some (seconds : ℚ)

theorem markForm?_of_writes (writes : clock.Writes text) : markForm? text = some (clock, []) := by
  have mark : clock.isMark = true :=
    isMark_of_isTimecode (isTimecode_iff.mpr ⟨writes.hours, writes.minutes, writes.seconds⟩)
  rw [markForm?, writes.clock?]
  simp only [fraction?, mark, if_true]

/-- A clock of few seconds is read as a mark without rounding. -/
theorem markSeconds_of_small (short : clock.hours.length ≤ maxDigits)
    (small : clock.total.natAbs ≤ Nat.pow 2 53) :
    ∃ time, clock.markSeconds [] = .ok time ∧ time.toRat? = some (clock.total : ℚ) := by
  rw [natAbs_total] at small
  have hours : clock.hourSeconds ≤ Nat.pow 2 53 := Nat.le_trans (Nat.le_add_right _ _) small
  have rest : digitsValue clock.seconds ≤ Nat.pow 2 53 := Nat.le_trans (Nat.le_add_left _ _) small
  have converted : Number.wholeToReal clock.hourSeconds =
      .ok (.finite false (clock.hourSeconds * Binary64.one)
        (Binary64.representable_mul_one hours)) :=
    Number.wholeToReal_eq_ok_iff.mpr ⟨Binary64.ofInt_natCast_of_small hours, rfl⟩
  have read : Binary64.ofDecimal false (digitsValue (clock.seconds ++ []))
      (-(([] : List Char).length : Int)) = .finite false (digitsValue clock.seconds * Binary64.one)
        (Binary64.representable_mul_one rest) := by
    rw [List.append_nil]
    exact Binary64.ofDecimal_of_small rest
  unfold Clock.markSeconds Clock.total
  rw [if_neg (Nat.not_lt.mpr short), converted]
  simp only [bind, Except.bind, pure, Except.pure, read, Binary64.add_of_small _ _ small]
  refine ⟨_, rfl, ?_⟩
  cases clock.negative with
  | false =>
    rw [if_neg Bool.false_ne_true, Binary64.toRat?_mul_one]
    simp
  | true =>
    rw [if_pos rfl, Binary64.neg, Binary64.toRat?_mul_one]
    simp

theorem marks_of_writes (writes : clock.Writes text) (short : clock.hours.length ≤ maxDigits)
    (small : clock.total.natAbs ≤ Nat.pow 2 53) : Marks text clock.total := by
  obtain ⟨time, given, value⟩ := markSeconds_of_small short small
  refine ⟨time, ?_, value⟩
  rw [parseMark_eq, markForm?_of_writes writes]
  exact liftM_defect_eq_ok_iff.mpr given

/-- So few seconds can be printed. -/
theorem lt_of_small {n : Nat} (small : n ≤ 2 ^ 53) : n < 3600 * 10 ^ maxDigits := by
  have places : 16 ≤ maxDigits := by decide
  generalize maxDigits = digits at places ⊢
  calc
    n ≤ 2 ^ 53 := small
    _ < 10 ^ 16 := by decide
    _ ≤ 10 ^ digits := Nat.pow_le_pow_right (by decide) places
    _ ≤ 3600 * 10 ^ digits := Nat.le_mul_of_pos_left _ (by decide)

/-- A timecode of few seconds stands for the same time as a progress mark, and so does every
timecode that so few seconds are printed as. -/
theorem marks_of_parse :
    (∀ (text : String) (seconds : Int), parse text = .ok seconds → seconds.natAbs ≤ 2 ^ 53 →
        Marks text seconds ∧ toSeconds (.text text) = .ok seconds) ∧
      ∀ n : Int, n.natAbs ≤ 2 ^ 53 → ∃ text, format (.int n) = .ok text ∧ Marks text n := by
  have agree : ∀ {text : String} {seconds : Int}, parse text = .ok seconds →
      seconds.natAbs ≤ 2 ^ 53 → Marks text seconds := by
    intro text seconds read small
    obtain ⟨clock, writes, short, rfl⟩ := exists_writes_of_parse read
    exact marks_of_writes writes short small
  refine ⟨fun text seconds read small => ⟨agree read small, read⟩, fun n small => ?_⟩
  obtain ⟨text, printed, read⟩ := rereads_int (lt_of_small small)
  exact ⟨text, printed, agree read small⟩

/-- A timecode in digits of another script, with a minus and blanks around it. -/
theorem marks_easternTimecode :
    parse " -١٠٠:٠٠:٠١\n" = .ok (-360001) ∧ Marks " -١٠٠:٠٠:٠١\n" (-360001) ∧
      ∃ text, format (.int 9007199254740992) = .ok text ∧ Marks text 9007199254740992 := by
  have read : parse " -١٠٠:٠٠:٠١\n" = .ok (-360001) := by decide +kernel
  exact ⟨read, (marks_of_parse.1 _ _ read (by decide)).1, marks_of_parse.2 _ (by decide)⟩

end Timecode

end Montage
