import Montage.Numeric.Number

/-!
# Real numbers that stay in range

A count of units is rounded to at most 53 binary digits, so the only rounding that gives no number
is one that leaves the range, and rounding does not pass a number that is in it. Main statements:
`ofUnitRatio_of_le` says that what is no greater than a number is rounded to a number,
`ofRatio_self` that a number divided by itself is one, `wholeToReal_of_small` that small whole
numbers are not rounded, and `wholeToReal_of_le` that those which can be converted have no gaps.
-/

namespace Montage.Binary64

/-- The count of units that `num / den` is rounded to. -/
def nearestUnits (num den : Nat) : Nat :=
  let shift := (num / den).log2 - 52
  roundQuotient num (den * Nat.pow 2 shift) * Nat.pow 2 shift

theorem ofUnitRatio_eq (negative : Bool) (num den : Nat) :
    ofUnitRatio negative num den =
      if exact : Representable (nearestUnits num den) then
        .finite negative (nearestUnits num den) exact
      else .infinity negative :=
  rfl

/-- A rounded number is finite or infinite, with the sign that it was given. -/
theorem ofUnitRatio_cases (negative : Bool) (num den : Nat) :
    (∃ exact, ofUnitRatio negative num den = .finite negative (nearestUnits num den) exact) ∨
      ofUnitRatio negative num den = .infinity negative := by
  rw [ofUnitRatio_eq]
  split
  · next exact => exact .inl ⟨exact, rfl⟩
  · exact .inr rfl

/-- What is rounded has at most 53 binary digits before its trailing zeros. -/
theorem nearestUnits_mod (num den : Nat) :
    nearestUnits num den % Nat.pow 2 ((nearestUnits num den).log2 - 52) = 0 := by
  unfold nearestUnits
  simp only [Nat.pow_eq]
  generalize shifted : (num / den).log2 - 52 = shift
  have short : num / den < 2 ^ (53 + shift) :=
    Nat.lt_of_lt_of_le Nat.lt_log2_self (Nat.pow_le_pow_right (by decide) (by omega))
  have floor : num / (den * 2 ^ shift) < 2 ^ 53 := by
    rw [← Nat.div_div_eq_div_mul, Nat.div_lt_iff_lt_mul (Nat.two_pow_pos shift), ← Nat.pow_add]
    exact short
  have digits : roundQuotient num (den * 2 ^ shift) ≤ 2 ^ 53 := by
    rcases roundQuotient_eq_or num (den * 2 ^ shift) with same | next <;> omega
  generalize roundQuotient num (den * 2 ^ shift) = digitsRounded at digits
  apply Nat.mod_eq_zero_of_dvd
  rcases Nat.lt_or_eq_of_le digits with fewer | rfl
  · -- The digits fit, so the zeros behind them are at least those of the shift.
    have below : digitsRounded * 2 ^ shift < 2 ^ (53 + shift) := by
      rw [Nat.pow_add]
      exact Nat.mul_lt_mul_of_pos_right fewer (Nat.two_pow_pos shift)
    refine Nat.dvd_trans (Nat.pow_dvd_pow 2 ?_) (Nat.dvd_mul_left _ _)
    by_cases zero : digitsRounded * 2 ^ shift = 0
    · simp [zero]
    · have bits := (Nat.log2_lt zero).mpr below
      omega
  · rw [← Nat.pow_add, Nat.log2_two_pow]
    exact Nat.pow_dvd_pow 2 (by omega)

/-- Rounding does not pass a number that can be represented. -/
theorem nearestUnits_le {count bound : Nat} (exact : Representable bound) (le : count ≤ bound) :
    nearestUnits count 1 ≤ bound := by
  unfold nearestUnits
  simp only [Nat.pow_eq, Nat.div_one, Nat.one_mul]
  have bits : count.log2 ≤ bound.log2 := by
    by_cases zero : count = 0
    · simp [zero]
    · exact (Nat.le_log2 (by omega)).mpr (Nat.le_trans (Nat.log2_self_le zero) le)
  -- The bound has no fewer digits, so it is a multiple of the step that is rounded to.
  obtain ⟨whole, rfl⟩ : 2 ^ (count.log2 - 52) ∣ bound :=
    Nat.dvd_trans (Nat.pow_dvd_pow 2 (by omega)) (Nat.dvd_of_mod_eq_zero exact.2)
  rw [Nat.mul_comm]
  refine Nat.mul_le_mul_left _ (roundQuotient_le (Nat.two_pow_pos _) ?_)
  rwa [Nat.mul_comm]

theorem representable_nearestUnits {count bound : Nat} (exact : Representable bound)
    (le : count ≤ bound) : Representable (nearestUnits count 1) :=
  ⟨Nat.lt_of_le_of_lt (nearestUnits_le exact le) exact.1, nearestUnits_mod count 1⟩

/-- What is no greater than a number is rounded to a number. -/
theorem ofUnitRatio_of_le {count bound : Nat} (negative : Bool) (exact : Representable bound)
    (le : count ≤ bound) :
    ofUnitRatio negative count 1 =
      .finite negative (nearestUnits count 1) (representable_nearestUnits exact le) := by
  rw [ofUnitRatio_eq]
  exact dif_pos _

/-- A count of units that is not zero is not rounded to zero. -/
theorem nearestUnits_pos {count : Nat} (positive : 0 < count) : 0 < nearestUnits count 1 := by
  unfold nearestUnits
  simp only [Nat.pow_eq, Nat.div_one, Nat.one_mul]
  refine Nat.mul_pos ?_ (Nat.two_pow_pos _)
  have floor : 0 < count / 2 ^ (count.log2 - 52) := by
    refine Nat.div_pos ?_ (Nat.two_pow_pos _)
    exact Nat.le_trans (Nat.pow_le_pow_right (by decide) (by omega))
      (Nat.log2_self_le (Nat.pos_iff_ne_zero.mp positive))
  rcases roundQuotient_eq_or count (2 ^ (count.log2 - 52)) with same | next <;> omega

theorem nearestUnits_zero_left (den : Nat) : nearestUnits 0 den = 0 := by
  simp [nearestUnits]

/-- A count of units that can be represented is rounded to itself. -/
theorem nearestUnits_of_representable {units : Nat} (exact : Representable units) :
    nearestUnits units 1 = units := by
  obtain ⟨digits, split⟩ := Nat.dvd_of_mod_eq_zero exact.2
  unfold nearestUnits
  simp only [Nat.pow_eq, Nat.div_one, Nat.one_mul] at split ⊢
  have rounded := roundQuotient_mul_right digits (Nat.two_pow_pos (units.log2 - 52))
  rw [Nat.mul_comm, ← split] at rounded
  rw [rounded, Nat.mul_comm, ← split]

/-- A quotient without rest is rounded as the whole number that it is. -/
theorem nearestUnits_mul_right (num : Nat) {den : Nat} (positive : 0 < den) :
    nearestUnits (num * den) den = nearestUnits num 1 := by
  have scaled := roundQuotient_mul_mul_right num (Nat.pow 2 (num.log2 - 52)) positive
  simp only [nearestUnits, Nat.mul_div_cancel num positive, Nat.div_one, Nat.one_mul]
  rw [Nat.mul_comm den, scaled]

/-! ## Powers of two -/

theorem nearestUnits_two_pow {count exponent : Nat} (positive : 0 < count)
    (enough : 52 ≤ exponent) :
    nearestUnits (count * Nat.pow 2 exponent) count = Nat.pow 2 exponent := by
  obtain ⟨shift, rfl⟩ := Nat.exists_eq_add_of_le enough
  simp only [nearestUnits, Nat.pow_eq]
  have digits : count * 2 ^ (52 + shift) = 2 ^ 52 * (count * 2 ^ shift) := by
    rw [Nat.mul_left_comm, ← Nat.pow_add]
  rw [Nat.mul_div_cancel_left _ positive, Nat.log2_two_pow, Nat.add_sub_cancel_left, digits,
    roundQuotient_mul_right _ (Nat.mul_pos positive (Nat.two_pow_pos _)), ← Nat.pow_add]

theorem representable_two_pow {exponent : Nat} (small : exponent < sizeLimit) :
    Representable (Nat.pow 2 exponent) := by
  simp only [Representable, Nat.pow_eq]
  refine ⟨Nat.pow_lt_pow_right (by decide) small, Nat.mod_eq_zero_of_dvd ?_⟩
  rw [Nat.log2_two_pow]
  exact Nat.pow_dvd_pow 2 (Nat.sub_le _ _)

theorem representable_mul_two_pow {digits places : Nat} (short : digits < Nat.pow 2 53)
    (room : 53 + places ≤ sizeLimit) : Representable (digits * Nat.pow 2 places) := by
  simp only [Representable, Nat.pow_eq]
  have below : digits * 2 ^ places < 2 ^ (53 + places) := by
    rw [Nat.pow_add]
    exact Nat.mul_lt_mul_of_pos_right short (Nat.two_pow_pos places)
  generalize sizeLimit = limit at room ⊢
  refine ⟨Nat.lt_of_lt_of_le below (Nat.pow_le_pow_right (by decide) room), ?_⟩
  rcases Nat.eq_zero_or_pos (digits * 2 ^ places) with zero | positive
  · rw [zero, Nat.zero_mod]
  · have bits := (Nat.log2_lt (Nat.ne_of_gt positive)).mpr below
    refine Nat.mod_eq_zero_of_dvd (Nat.dvd_trans (Nat.pow_dvd_pow 2 ?_) (Nat.dvd_mul_left _ _))
    omega

/-- Rounding does not lead below the power of two that a count of units has reached. -/
theorem two_pow_log2_le_nearestUnits {count : Nat} (positive : 0 < count) :
    Nat.pow 2 count.log2 ≤ nearestUnits count 1 := by
  have reached := Nat.log2_self_le (Nat.ne_of_gt positive)
  unfold nearestUnits
  simp only [Nat.pow_eq, Nat.div_one, Nat.one_mul]
  have split : 2 ^ count.log2 = 2 ^ (count.log2 - (count.log2 - 52)) * 2 ^ (count.log2 - 52) := by
    rw [← Nat.pow_add]
    congr 1
    omega
  have floor : 2 ^ (count.log2 - (count.log2 - 52)) ≤ count / 2 ^ (count.log2 - 52) := by
    rw [Nat.le_div_iff_mul_le (Nat.two_pow_pos _), ← split]
    exact reached
  rw [split]
  refine Nat.mul_le_mul_right _ (Nat.le_trans floor ?_)
  rcases roundQuotient_eq_or count (2 ^ (count.log2 - 52)) with same | next
  · exact Nat.le_of_eq same.symm
  · exact Nat.le_trans (Nat.le_succ _) (Nat.le_of_eq next.symm)

/-- A greater count of units is not rounded to a smaller one, as long as it stays in range. -/
theorem nearestUnits_mono {count other : Nat} (le : count ≤ other)
    (inRange : Representable (nearestUnits other 1)) :
    nearestUnits count 1 ≤ nearestUnits other 1 := by
  rcases Nat.eq_zero_or_pos count with rfl | positive
  · rw [nearestUnits_zero_left]
    exact Nat.zero_le _
  have bits : count.log2 ≤ other.log2 :=
    (Nat.le_log2 (by omega)).mpr (Nat.le_trans (Nat.log2_self_le (by omega)) le)
  rcases Nat.eq_or_lt_of_le bits with same | fewer
  · unfold nearestUnits
    simp only [Nat.div_one, same]
    exact Nat.mul_le_mul_right _ (roundQuotient_mono _ le)
  · -- The power of two that the greater count has reached lies between the two.
    have reached := two_pow_log2_le_nearestUnits (Nat.lt_of_lt_of_le positive le)
    have below : count ≤ 2 ^ other.log2 :=
      Nat.le_of_lt ((Nat.log2_lt (Nat.ne_of_gt positive)).mp fewer)
    have inLimit := Nat.lt_of_le_of_lt reached inRange.1
    have small : other.log2 < sizeLimit := by
      generalize sizeLimit = limit at inLimit ⊢
      exact (Nat.pow_lt_pow_iff_right Nat.one_lt_two).mp inLimit
    exact Nat.le_trans (nearestUnits_le (representable_two_pow small) below) reached

theorem pos_units_one : 0 < one := by
  unfold one
  exact two_pow_pos unitPlaces

theorem representable_one : Representable one := by
  unfold one
  exact representable_two_pow (by decide)

theorem nearestUnits_self {count : Nat} (positive : 0 < count) :
    nearestUnits (count * one) count = one := by
  have enough : 52 ≤ unitPlaces := by decide
  unfold one
  generalize unitPlaces = places at enough
  exact nearestUnits_two_pow positive enough

/-- A number divided by itself is one. -/
theorem ofRatio_self {count : Nat} (positive : 0 < count) :
    ofRatio false count count = .finite false one representable_one := by
  rw [ofRatio, ofUnitRatio_eq]
  simp only [nearestUnits_self positive]
  exact dif_pos representable_one

theorem ofRatio_zero_left (negative : Bool) (den : Nat) :
    ofRatio negative 0 den = .finite negative 0 representable_zero := by
  rw [ofRatio, Nat.zero_mul, ofUnitRatio_zero_left]

theorem ofInt_one : ofInt 1 = .finite false one representable_one :=
  ofRatio_self Nat.one_pos

theorem ofInt_zero : ofInt 0 = zero :=
  ofRatio_zero_left false 1

/-- Whole numbers of at most 53 binary digits can be represented, and so can the first of more. -/
theorem representable_mul_one {count : Nat} (small : count ≤ Nat.pow 2 53) :
    Representable (count * one) := by
  have room : 53 + unitPlaces < sizeLimit := by decide
  unfold one
  generalize unitPlaces = places at room
  rcases Nat.lt_or_eq_of_le small with fewer | rfl
  · exact representable_mul_two_pow fewer (Nat.le_of_lt room)
  · have power : Nat.pow 2 53 * Nat.pow 2 places = Nat.pow 2 (53 + places) :=
      (Nat.pow_add ..).symm
    rw [power]
    exact representable_two_pow room

theorem ofInt_of_small {n : Int} (small : n.natAbs ≤ Nat.pow 2 53) :
    ofInt n = .finite (n < 0) (n.natAbs * one) (representable_mul_one small) := by
  have exact := representable_mul_one small
  have same := nearestUnits_of_representable exact
  rw [ofInt, ofRatio, ofUnitRatio_eq]
  simp only [same]
  exact dif_pos exact

theorem ofInt_natCast_of_small {n : Nat} (small : n ≤ Nat.pow 2 53) :
    ofInt n = .finite false (n * one) (representable_mul_one small) := by
  have whole := ofInt_of_small (n := n) small
  rwa [decide_eq_false (Int.not_lt.mpr (Int.natCast_nonneg n))] at whole

end Montage.Binary64

namespace Montage.Number

open Binary64

theorem wholeToReal_eq_ok_iff {n : Int} {x : Binary64} :
    wholeToReal n = .ok x ↔ ofInt n = x ∧ x.isFinite := by
  unfold wholeToReal
  simp only
  split
  · next finite =>
    rw [Except.ok.injEq]
    exact ⟨fun same => ⟨same, same ▸ finite⟩, fun both => both.1⟩
  · next infinite => exact iff_of_false nofun fun both => infinite (both.1 ▸ both.2)

/-- A positive whole number is converted to a positive number. -/
theorem wholeToReal_of_pos {n : Int} {x : Binary64} (positive : 0 < n)
    (converted : wholeToReal n = .ok x) :
    ∃ units exact, x = .finite false units exact ∧ 0 < units := by
  obtain ⟨rfl, isFinite⟩ := wholeToReal_eq_ok_iff.mp converted
  have units : 0 < n.natAbs * one := Nat.mul_pos (by omega) pos_units_one
  have rounded : ofInt n = ofUnitRatio false (n.natAbs * one) 1 := by
    rw [ofInt, ofRatio, decide_eq_false (Int.not_lt.mpr (Int.le_of_lt positive))]
  rcases ofUnitRatio_cases false (n.natAbs * one) 1 with ⟨exact, finite⟩ | infinite
  · exact ⟨_, exact, rounded.trans finite, nearestUnits_pos units⟩
  · rw [rounded, infinite] at isFinite
    cases isFinite

theorem div_whole {m n : Int} {quotient : Binary64}
    (rounded : ofRatio ((m < 0) ^^ (n < 0)) m.natAbs n.natAbs = quotient)
    (isFinite : quotient.isFinite) : (whole m).div (whole n) = .ok quotient := by
  simp only [div, rounded, isFinite, if_true]

theorem wholeToReal_zero : wholeToReal 0 = .ok zero :=
  wholeToReal_eq_ok_iff.mpr ⟨ofInt_zero, rfl⟩

theorem wholeToReal_of_nonneg {n : Nat} {x : Binary64} (converted : wholeToReal n = .ok x) :
    ∃ units exact, x = .finite false units exact := by
  cases n with
  | zero => exact ⟨0, representable_zero, Except.ok.inj (converted.symm.trans wholeToReal_zero)⟩
  | succ n =>
    obtain ⟨units, exact, same, _⟩ := wholeToReal_of_pos (by omega) converted
    exact ⟨units, exact, same⟩

/-- A whole number of at most 53 binary digits is converted without rounding. -/
theorem wholeToReal_of_small {n : Int} (small : n.natAbs ≤ Nat.pow 2 53) :
    wholeToReal n = .ok (.finite (n < 0) (n.natAbs * one) (representable_mul_one small)) :=
  wholeToReal_eq_ok_iff.mpr ⟨ofInt_of_small small, rfl⟩

theorem exists_wholeToReal_iff {n : Int} :
    (∃ x, wholeToReal n = .ok x) ↔ Representable (nearestUnits (n.natAbs * one) 1) := by
  have rounded : ofInt n = ofUnitRatio (n < 0) (n.natAbs * one) 1 := rfl
  constructor
  · rintro ⟨x, converted⟩
    obtain ⟨rfl, isFinite⟩ := wholeToReal_eq_ok_iff.mp converted
    rcases ofUnitRatio_cases (n < 0) (n.natAbs * one) 1 with ⟨exact, _⟩ | infinite
    · exact exact
    · rw [rounded, infinite] at isFinite
      cases isFinite
  · intro exact
    refine ⟨.finite (n < 0) _ exact, wholeToReal_eq_ok_iff.mpr ⟨?_, rfl⟩⟩
    rw [rounded, ofUnitRatio_eq]
    exact dif_pos exact

theorem wholeToReal_eq_error {n : Int} {defect : Defect}
    (failed : wholeToReal n = .error defect) : defect = .overflow := by
  unfold wholeToReal at failed
  dsimp only at failed
  split at failed
  · cases failed
  · cases failed
    rfl

/-- A whole number below one that can be converted can be converted. -/
theorem wholeToReal_of_le {m n : Int} (nonneg : 0 ≤ m) (le : m ≤ n) {x : Binary64}
    (converted : wholeToReal n = .ok x) : ∃ y, wholeToReal m = .ok y := by
  have inRange := exists_wholeToReal_iff.mp ⟨x, converted⟩
  have units : m.natAbs * one ≤ n.natAbs * one := Nat.mul_le_mul_right _ (by omega)
  exact exists_wholeToReal_iff.mpr
    ⟨Nat.lt_of_le_of_lt (nearestUnits_mono units inRange) inRange.1, nearestUnits_mod _ _⟩

/-- If a whole number is out of range, so is every greater one. -/
theorem wholeToReal_error_of_le {m n : Int} (nonneg : 0 ≤ m) (le : m ≤ n) {defect : Defect}
    (failed : wholeToReal m = .error defect) : wholeToReal n = .error .overflow := by
  cases given : wholeToReal n with
  | ok x =>
    obtain ⟨y, converted⟩ := wholeToReal_of_le nonneg le given
    rw [converted] at failed
    cases failed
  | error other => rw [wholeToReal_eq_error given]

/-- The least whole number out of the range of binary64: half a step above its greatest number. -/
def realLimit : Nat := Nat.pow 2 1024 - Nat.pow 2 970

theorem isFinite_ofInt_realLimit : (ofInt realLimit).isFinite = false := by
  decide +kernel

theorem isFinite_ofInt_below_realLimit : (ofInt (realLimit - 1 : Nat)).isFinite = true := by
  decide +kernel

/-- Whole numbers are converted as long as they are below the limit. -/
theorem exists_wholeToReal_iff_lt {n : Nat} : (∃ x, wholeToReal n = .ok x) ↔ n < realLimit := by
  constructor
  · rintro ⟨x, converted⟩
    refine Nat.lt_of_not_le fun beyond => ?_
    -- A number beyond the limit would bring the limit into the range.
    obtain ⟨y, limit⟩ :=
      wholeToReal_of_le (Int.natCast_nonneg _) (Int.ofNat_le.mpr beyond) converted
    obtain ⟨rfl, isFinite⟩ := wholeToReal_eq_ok_iff.mp limit
    rw [isFinite_ofInt_realLimit] at isFinite
    cases isFinite
  · intro below
    have last := wholeToReal_eq_ok_iff.mpr ⟨rfl, isFinite_ofInt_below_realLimit⟩
    exact wholeToReal_of_le (Int.natCast_nonneg n)
      (Int.ofNat_le.mpr (Nat.le_sub_one_of_lt below)) last

theorem wholeToReal_of_limit_le {n : Nat} (beyond : realLimit ≤ n) :
    wholeToReal n = .error .overflow := by
  cases given : wholeToReal n with
  | ok x => exact absurd (exists_wholeToReal_iff_lt.mp ⟨x, given⟩) (Nat.not_lt.mpr beyond)
  | error defect => rw [wholeToReal_eq_error given]

end Montage.Number
