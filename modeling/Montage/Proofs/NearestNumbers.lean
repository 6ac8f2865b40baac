import Mathlib.Algebra.Order.Field.Basic
import Mathlib.Algebra.Order.Ring.Abs
import Mathlib.Tactic.FieldSimp
import Mathlib.Tactic.Linarith
import Mathlib.Tactic.Ring
import Montage.Proofs.DecimalText

/-!
# The nearest number

What is rounded to binary64 becomes a number than which no other is nearer to the exact value
(`nearestUnits_nearest`, and `isNearest_nearestUnits` for values). So rounding keeps the order, and
a quotient of two numbers is rounded to one exactly if it is not below one, since different numbers
are not that close to each other.
-/

namespace Montage

/-- No multiple is nearer than that of the rounded quotient. -/
theorem roundQuotient_nearest (num : Nat) {den : Nat} (positive : 0 < den) (count : Nat) :
    |(num : ℤ) - roundQuotient num den * den| ≤ |(num : ℤ) - count * den| := by
  obtain ⟨above, below⟩ := roundQuotient_within_half num positive
  generalize roundQuotient num den = rounded at above below
  rcases eq_or_ne count rounded with rfl | other
  · exact le_refl _
  have half : 2 * |(num : ℤ) - rounded * den| ≤ den := by
    rw [← Nat.cast_mul]
    rcases abs_cases ((num : ℤ) - (rounded * den : Nat)) with ⟨same, -⟩ | ⟨same, -⟩ <;>
      rw [same] <;> omega
  -- Two multiples are apart by the whole divisor.
  have apart : (den : ℤ) ≤ |((num : ℤ) - rounded * den) - (num - count * den)| := by
    have factored :
        ((num : ℤ) - rounded * den) - (num - count * den) = (count - rounded) * den := by
      ring
    have different : (1 : ℤ) ≤ |(count : ℤ) - rounded| := by
      exact Int.one_le_abs (sub_ne_zero.mpr (Nat.cast_injective.ne other))
    rw [factored, abs_mul, Nat.abs_cast]
    exact le_mul_of_one_le_left (Nat.cast_nonneg den) different
  have triangle := abs_sub ((num : ℤ) - rounded * den) (num - count * den)
  linarith

namespace Binary64

/-- A count of units with at most 53 binary digits before its trailing zeros, however large. -/
def Short (units : Nat) : Prop :=
  units % Nat.pow 2 (units.log2 - 52) = 0

instance (units : Nat) : Decidable (Short units) :=
  inferInstanceAs (Decidable (_ = _))

variable {num other den units : Nat}

theorem Short.dvd (short : Short units) : 2 ^ (units.log2 - 52) ∣ units := by
  rw [Short, Nat.pow_eq] at short
  exact Nat.dvd_of_mod_eq_zero short

/-- A short count has its digits on a grid of powers of two, or ends before they begin. -/
theorem Short.onGrid (short : Short units) (shift : Nat) :
    2 ^ shift ∣ units ∨ 0 < shift ∧ units < 2 ^ (52 + shift) := by
  rcases Nat.lt_or_ge (units.log2 - 52) shift with fine | coarse
  · refine .inr ⟨Nat.zero_lt_of_lt fine, ?_⟩
    exact Nat.lt_of_lt_of_le Nat.lt_log2_self (Nat.pow_le_pow_right (by decide) (by omega))
  · exact .inl (Nat.dvd_trans (Nat.pow_dvd_pow 2 coarse) short.dvd)

theorem short_nearestUnits (num den : Nat) : Short (nearestUnits num den) :=
  nearestUnits_mod num den

/-- No number is nearer than the one that a quotient is rounded to. -/
theorem nearestUnits_nearest (num : Nat) (positive : 0 < den) (short : Short units) :
    |(num : ℤ) - nearestUnits num den * den| ≤ |(num : ℤ) - units * den| := by
  unfold nearestUnits
  generalize shifted : (num / den).log2 - 52 = shift
  simp only [Nat.pow_eq]
  have step : 0 < den * 2 ^ shift := Nat.mul_pos positive (Nat.two_pow_pos shift)
  have nearest := roundQuotient_nearest num step
  have scaled : ∀ count : Nat,
      ((count * 2 ^ shift : Nat) : ℤ) * den = count * ((den * 2 ^ shift : Nat) : ℤ) := by
    intro count
    push_cast
    ring
  rw [scaled]
  rcases short.onGrid shift with ⟨count, rfl⟩ | ⟨shifts, below⟩
  · rw [Nat.mul_comm (2 ^ shift) count, scaled]
    exact nearest count
  · -- The quotient has reached a power of two on the grid, which the other number is below.
    have reached : 2 ^ (52 + shift) * den ≤ num := by
      have some_quotient : num / den ≠ 0 := by
        intro none
        rw [none] at shifted
        exact absurd (shifted ▸ shifts) (by decide)
      have log : 52 + shift = (num / den).log2 := by omega
      rw [log]
      exact (Nat.le_div_iff_mul_le positive).mp (Nat.log2_self_le some_quotient)
    have further : units * den ≤ 2 ^ (52 + shift) * den := Nat.mul_le_mul_right den below.le
    refine le_trans (nearest (2 ^ 52)) ?_
    rw [← scaled, ← Nat.pow_add, ← Nat.cast_mul, ← Nat.cast_mul, abs_of_nonneg (by omega),
      abs_of_nonneg (by omega)]
    omega

/-- What is at least as near to the greater of two numbers is on its side of their middle. -/
theorem le_two_mul_of_abs_le {x low high : ℤ} (less : low < high)
    (near : |x - high| ≤ |x - low|) : low + high ≤ 2 * x := by
  rcases abs_cases (x - high) with ⟨first, _⟩ | ⟨first, _⟩ <;>
    rcases abs_cases (x - low) with ⟨second, _⟩ | ⟨second, _⟩ <;> linarith

theorem two_mul_le_of_abs_le {x low high : ℤ} (less : low < high)
    (near : |x - low| ≤ |x - high|) : 2 * x ≤ low + high := by
  rcases abs_cases (x - high) with ⟨first, _⟩ | ⟨first, _⟩ <;>
    rcases abs_cases (x - low) with ⟨second, _⟩ | ⟨second, _⟩ <;> linarith

/-- A greater quotient is not rounded to a smaller number. -/
theorem nearestUnits_mono_left (positive : 0 < den) (le : num ≤ other) :
    nearestUnits num den ≤ nearestUnits other den := by
  by_contra! less
  have scaled : (nearestUnits other den * den : ℤ) < nearestUnits num den * den := by
    exact_mod_cast Nat.mul_lt_mul_of_pos_right less positive
  have first := le_two_mul_of_abs_le scaled
    (nearestUnits_nearest num positive (short_nearestUnits other den))
  have second := two_mul_le_of_abs_le scaled
    (nearestUnits_nearest other positive (short_nearestUnits num den))
  have same : num = other := by omega
  exact absurd (same ▸ less) (Nat.lt_irrefl _)

/-- A quotient is rounded to zero exactly if it is at most half a unit. -/
theorem nearestUnits_eq_zero_iff (positive : 0 < den) :
    nearestUnits num den = 0 ↔ 2 * num ≤ den := by
  constructor
  · intro zero
    have unit : Short 1 := by decide
    have near := nearestUnits_nearest num positive unit
    rw [zero, Nat.cast_zero, zero_mul, Nat.cast_one, one_mul] at near
    have half := two_mul_le_of_abs_le (Int.natCast_pos.mpr positive) near
    omega
  · intro small
    have floor : num / den = 0 := Nat.div_eq_of_lt (by omega)
    unfold nearestUnits
    rw [floor]
    show roundQuotient num (den * Nat.pow 2 0) * Nat.pow 2 0 = 0
    rw [Nat.pow_eq, Nat.pow_zero, Nat.mul_one, Nat.mul_one]
    exact (roundQuotient_eq_zero_iff positive).mpr small

/-- Different numbers are apart by what 53 binary digits of the greater one can show. -/
theorem le_gap_of_short {low high : Nat} (shortLow : Short low) (shortHigh : Short high)
    (less : low < high) : high ≤ (high - low) * 2 ^ 53 := by
  have logs : low.log2 ≤ high.log2 := by
    rcases Nat.eq_zero_or_pos low with rfl | positive
    · exact Nat.zero_le _
    · exact (Nat.le_log2 (by omega)).mpr
        (Nat.le_trans (Nat.log2_self_le (by omega)) less.le)
  -- Both are multiples of the last digit of the smaller one.
  obtain ⟨highDigits, rfl⟩ : 2 ^ (low.log2 - 52) ∣ high :=
    Nat.dvd_trans (Nat.pow_dvd_pow 2 (by omega)) shortHigh.dvd
  obtain ⟨lowDigits, split⟩ := shortLow.dvd
  have below : low < 2 ^ (low.log2 - 52) * 2 ^ 53 := by
    rw [← Nat.pow_add]
    exact Nat.lt_of_lt_of_le Nat.lt_log2_self (Nat.pow_le_pow_right (by decide) (by omega))
  generalize 2 ^ (low.log2 - 52) = step at split less below ⊢
  subst split
  have few : lowDigits < 2 ^ 53 := Nat.lt_of_mul_lt_mul_left below
  have more : lowDigits < highDigits := Nat.lt_of_mul_lt_mul_left less
  rw [← Nat.mul_sub, Nat.mul_assoc]
  exact Nat.mul_le_mul_left step (by omega)

/-- The number before one is one less its last binary digit. -/
theorem exists_before_one : ∃ step, one = 2 ^ 53 * step ∧ Representable ((2 ^ 53 - 1) * step) := by
  have room : 53 + (unitPlaces - 53) = unitPlaces := by decide
  have small : 53 + (unitPlaces - 53) ≤ sizeLimit := by decide
  refine ⟨Nat.pow 2 (unitPlaces - 53), ?_, representable_mul_two_pow (by decide) small⟩
  unfold one
  generalize unitPlaces - 53 = places at room
  rw [← room]
  exact Nat.pow_add 2 53 places

/-- A quotient of two numbers is rounded to at least one exactly if it is at least one. -/
theorem one_le_nearestUnits_iff {count : Nat} (short : Short units) (shortCount : Short count)
    (positive : 0 < count) : one ≤ nearestUnits (units * one) count ↔ count ≤ units := by
  constructor
  · intro reached
    by_contra! less
    have gap := le_gap_of_short short shortCount less
    obtain ⟨step, split, exact⟩ := exists_before_one
    -- The quotient does not pass the number before one, and that is not rounded.
    have behind : units * one ≤ (2 ^ 53 - 1) * step * count := by
      have counted : units * 2 ^ 53 ≤ (2 ^ 53 - 1) * count := by omega
      calc
        units * one = units * 2 ^ 53 * step := by rw [split, Nat.mul_assoc]
        _ ≤ (2 ^ 53 - 1) * count * step := Nat.mul_le_mul_right step counted
        _ = (2 ^ 53 - 1) * step * count := Nat.mul_right_comm _ _ _
    have rounded := nearestUnits_mono_left positive behind
    rw [nearestUnits_mul_right _ positive, nearestUnits_of_representable exact] at rounded
    have last : 0 < step := by
      have unit := pos_units_one
      rw [split] at unit
      exact Nat.pos_of_mul_pos_left unit
    omega
  · intro le
    calc
      one = nearestUnits (count * one) count := (nearestUnits_self positive).symm
      _ ≤ nearestUnits (units * one) count :=
        nearestUnits_mono_left positive (Nat.mul_le_mul_right _ le)

/-! ## Values -/

/-- The value of a number, when no number is nearer to what it stands for. -/
structure IsNearest (value exact : ℚ) : Prop where
  isValue : ∃ x : Binary64, x.toRat? = some value
  nearest : ∀ {x : Binary64} {other : ℚ}, x.toRat? = some other →
    |exact - value| ≤ |exact - other|

theorem toRat?_zero : zero.toRat? = some 0 := by
  rw [zero, toRat?, if_neg Bool.false_ne_true, Nat.cast_zero, zero_div]

theorem toRat?_one : (finite false one representable_one).toRat? = some 1 := by
  rw [toRat?, if_neg Bool.false_ne_true, div_self one_pos_rat.ne']

/-- A value that a number has is the nearest one to itself. -/
theorem isNearest_self {x : Binary64} {value : ℚ} (same : x.toRat? = some value) :
    IsNearest value value where
  isValue := ⟨x, same⟩
  nearest _ := by
    rw [sub_self, abs_zero]
    exact abs_nonneg _

theorem abs_ratio_sub (num units : Nat) (positive : 0 < den) :
    |(num : ℚ) / (den * one) - units / one| =
      ((|(num : ℤ) - units * den| : ℤ) : ℚ) / (den * one) := by
  have unit := one_pos_rat
  have divisor : (0 : ℚ) < den := Nat.cast_pos.mpr positive
  generalize (one : ℚ) = whole at *
  have joined :
      (num : ℚ) / (den * whole) - units / whole = (num - units * den) / (den * whole) := by
    field_simp
  rw [joined, abs_div, abs_of_pos (mul_pos divisor unit)]
  push_cast
  rfl

/-- What a quotient is rounded to has the nearest value. -/
theorem isNearest_nearestUnits (positive : 0 < den) (exact : Representable (nearestUnits num den)) :
    IsNearest (nearestUnits num den / one) (num / (den * one)) where
  isValue := ⟨.finite false _ exact, rfl⟩
  nearest := by
    intro x other valueIs
    have divisor : (0 : ℚ) ≤ den * one := mul_nonneg (Nat.cast_nonneg den) one_pos_rat.le
    cases x with
    | nan => cases valueIs
    | infinity => cases valueIs
    | finite negative units unitsExact =>
      have nearest : |(num : ℚ) / (den * one) - nearestUnits num den / one| ≤
          |(num : ℚ) / (den * one) - units / one| := by
        rw [abs_ratio_sub _ _ positive, abs_ratio_sub _ _ positive]
        refine div_le_div_of_nonneg_right (Int.cast_le.mpr ?_) divisor
        exact nearestUnits_nearest num positive unitsExact.2
      cases valueIs
      refine nearest.trans ?_
      cases negative with
      | false => exact le_refl _
      | true =>
        -- What is on the other side of zero is not nearer.
        rw [if_pos rfl, sub_neg_eq_add]
        have quotient : (0 : ℚ) ≤ num / (den * one) := div_nonneg (Nat.cast_nonneg num) divisor
        have least : (0 : ℚ) ≤ units / one := div_nonneg (Nat.cast_nonneg units) one_pos_rat.le
        rw [abs_of_nonneg (add_nonneg quotient least)]
        exact abs_le.mpr ⟨by linarith, by linarith⟩

end Binary64

end Montage
