import Mathlib.Tactic.Linarith
import Mathlib.Tactic.NormNum
import Mathlib.Tactic.Positivity
import Mathlib.Tactic.Ring
import Montage.Proofs.DecimalText

/-!
# Numbers as they are printed

A finite number is printed as a plain decimal: digits, at most six places behind a point of which
the last is no zero, and perhaps a minus in front. Whole numbers are printed as they are and all
others rounded to millionths, and both together keep the order. Main statement: `printed_of_finite`.
-/

namespace Montage

/-- A magnitude with a sign. -/
def signed (negative : Bool) (magnitude : ℚ) : ℚ :=
  if negative then -magnitude else magnitude

theorem abs_signed_sub (negative : Bool) (p q : ℚ) :
    |signed negative p - signed negative q| = |p - q| := by
  cases negative with
  | false => rfl
  | true =>
    show |-p - -q| = |p - q|
    rw [← neg_sub', abs_neg]

/-! ## Plain decimals -/

/-- A decimal without an exponent, and without zeros at the end of its places. -/
structure PlainDecimal where
  negative : Bool
  whole : List Char
  /-- The places behind the point; without any there is no point. -/
  fraction : List Char
  present : whole ≠ []
  digits : ∀ c ∈ whole, c.isDigit = true
  places : ∀ c ∈ fraction, c.isDigit = true
  last : ∀ c ∈ fraction.getLast?, c ≠ '0'

namespace PlainDecimal

/-- A decimal as text. -/
def text (decimal : PlainDecimal) : List Char :=
  (if decimal.negative then ['-'] else []) ++
    (decimal.whole ++ if decimal.fraction = [] then [] else '.' :: decimal.fraction)

/-- The number that a decimal denotes. -/
def value (decimal : PlainDecimal) : ℚ :=
  signed decimal.negative
    (Nat.ofDigitChars 10 (decimal.whole ++ decimal.fraction) 0 / 10 ^ decimal.fraction.length)

/-- What is read of a decimal is the number that it denotes. -/
theorem value?_text (decimal : PlainDecimal) :
    DecimalText.value? decimal.text = some decimal.value := by
  have magnitude : DecimalText.magnitude?
      (decimal.whole ++ if decimal.fraction = [] then [] else '.' :: decimal.fraction) =
        some (Nat.ofDigitChars 10 (decimal.whole ++ decimal.fraction) 0 /
          10 ^ decimal.fraction.length : ℚ) := by
    split
    · next none =>
      rw [none, List.append_nil, DecimalText.magnitude?_whole decimal.digits decimal.present]
      simp
    · next some_place =>
      exact DecimalText.magnitude?_point decimal.digits decimal.present decimal.places some_place
  rw [text, DecimalText.value?_sign _ (exists_cons_digit decimal.digits decimal.present _),
    magnitude]
  rfl

end PlainDecimal

/-- The last of the places that are kept is no zero. -/
theorem ne_zero_of_last_keptPlaces (fraction : List Char) :
    ∀ c ∈ (keptPlaces fraction).getLast?, c ≠ '0' := by
  intro c last
  have some_place : keptPlaces fraction ≠ [] := by
    intro none
    rw [none] at last
    cases last
  obtain rfl := Option.some.inj ((List.getLast?_eq_some_getLast some_place).symm.trans last)
  exact fun zero => List.rdropWhile_last_not (· == '0') fraction some_place (beq_iff_eq.mpr zero)

/-- A finite number is printed as a plain decimal of at most six places. -/
theorem exists_decimal_of_realParameter (negative : Bool) (units : Nat)
    (exact : Representable units) :
    ∃ decimal : PlainDecimal, realParameter (.finite negative units exact) = decimal.text ∧
      decimal.fraction.length ≤ 6 := by
  rw [realParameter_finite]
  by_cases whole : units % Binary64.one = 0
  · rw [if_pos whole]
    refine ⟨⟨negative && units / Binary64.one != 0, Nat.toDigits 10 (units / Binary64.one), [],
      Nat.toDigits_ne_nil, fun c => isDigit_of_mem_toDigits, nofun, nofun⟩, ?_, Nat.zero_le _⟩
    rw [PlainDecimal.text, if_pos rfl, List.append_nil]
  · obtain ⟨front, fraction, split, present, digits, places, length, -⟩ :=
      exists_parts_of_fixedDigits (show 6 ≠ 0 by decide) units
    have kept := List.rdropWhile_prefix (· == '0') fraction
    rw [if_neg whole, split, dropTrailingZeros_point _ digits present places]
    exact ⟨⟨negative, front, keptPlaces fraction, present, digits,
      fun c inKept => places c (kept.subset inKept), ne_zero_of_last_keptPlaces fraction⟩, rfl,
      kept.length_le.trans_eq length⟩

/-! ## Millionths -/

namespace Binary64

/-- What is rounded to places is off by at most half of the last one. -/
theorem abs_placeCount_sub_le (places units : Nat) :
    |(placeCount places units / 10 ^ places : ℚ) - units / one| ≤ 1 / (2 * 10 ^ places) := by
  obtain ⟨within, beyond⟩ := roundQuotient_within_half (units * 10 ^ places) pos_units_one
  change 2 * (placeCount places units * one) ≤ _ at within
  change _ ≤ 2 * (placeCount places units * one) + _ at beyond
  have above : (2 * (placeCount places units * one) : ℚ) ≤ 2 * (units * 10 ^ places) + one := by
    exact_mod_cast within
  have below : (2 * (units * 10 ^ places) : ℚ) ≤ 2 * (placeCount places units * one) + one := by
    exact_mod_cast beyond
  have unit := one_pos_rat
  have scale : (0 : ℚ) < 10 ^ places := by positivity
  -- Only that the unit is positive matters from here.
  generalize (one : ℚ) = whole at above below unit ⊢
  have half : 2 * |(placeCount places units * whole - 10 ^ places * units : ℚ)| ≤ whole := by
    rcases abs_cases (placeCount places units * whole - 10 ^ places * units : ℚ) with
      ⟨same, -⟩ | ⟨same, -⟩ <;> rw [same] <;> linarith
  rw [div_sub_div _ _ scale.ne' unit.ne', abs_div, abs_of_pos (mul_pos scale unit),
    div_le_div_iff₀ (mul_pos scale unit) (by positivity), one_mul]
  calc
    |(placeCount places units * whole - 10 ^ places * units : ℚ)| * (2 * 10 ^ places) =
        10 ^ places * (2 * |(placeCount places units * whole - 10 ^ places * units : ℚ)|) := by ring
    _ ≤ 10 ^ places * whole := by gcongr

theorem placeCount_zero (places : Nat) : placeCount places 0 = 0 := by
  rw [placeCount, Nat.zero_mul, roundQuotient_zero_left]

theorem placeCount_mono (places : Nat) {units more : Nat} (le : units ≤ more) :
    placeCount places units ≤ placeCount places more :=
  roundQuotient_mono one (Nat.mul_le_mul_right _ le)

/-- A count of units as a number of millionths. -/
def millionths (units : Nat) : ℚ :=
  placeCount 6 units / 10 ^ 6

variable {negative other : Bool} {units more : Nat}

theorem millionths_zero : millionths 0 = 0 := by
  rw [millionths, placeCount_zero, Nat.cast_zero, zero_div]

theorem millionths_nonneg (units : Nat) : 0 ≤ millionths units :=
  div_nonneg (Nat.cast_nonneg _) (by positivity)

theorem millionths_mono (le : (units / one : ℚ) ≤ more / one) :
    millionths units ≤ millionths more := by
  rw [div_le_div_iff_of_pos_right one_pos_rat, Nat.cast_le] at le
  rw [millionths, millionths, div_le_div_iff_of_pos_right (by positivity), Nat.cast_le]
  exact placeCount_mono 6 le

theorem abs_millionths_sub_le (units : Nat) : |millionths units - units / one| ≤ 1 / 2000000 := by
  have half : (1 / (2 * 10 ^ 6) : ℚ) = 1 / 2000000 := by norm_num
  rw [← half]
  exact abs_placeCount_sub_le 6 units

/-- A whole number is not rounded. -/
theorem millionths_of_whole {n : ℤ} (whole : signed negative (units / one) = n) :
    millionths units = units / one := by
  have unit := one_pos_rat
  have size : (units / one : ℚ) = n.natAbs := by
    have nonneg : (0 : ℚ) ≤ units / one := div_nonneg (Nat.cast_nonneg units) unit.le
    rw [Nat.cast_natAbs, Int.cast_abs, ← whole]
    cases negative with
    | false => exact (abs_of_nonneg nonneg).symm
    | true =>
      show (units / one : ℚ) = |-(units / one : ℚ)|
      rw [abs_neg, abs_of_nonneg nonneg]
  have counted : units = n.natAbs * one := by
    rw [div_eq_iff unit.ne'] at size
    exact_mod_cast size
  have scale : (10 : ℚ) ^ 6 ≠ 0 := pow_ne_zero 6 (by decide)
  rw [size, counted, millionths, placeCount_mul_one, Nat.cast_mul, Nat.cast_pow, Nat.cast_ofNat,
    mul_div_cancel_right₀ _ scale]

/-- Rounding to millionths keeps the order, whatever the signs are. -/
theorem signed_millionths_mono (le : signed negative (units / one) ≤ signed other (more / one)) :
    signed negative (millionths units) ≤ signed other (millionths more) := by
  cases negative with
  | false =>
    cases other with
    | false => exact millionths_mono le
    | true =>
      -- Both numbers are zero.
      have first : (0 : ℚ) ≤ units / one := div_nonneg (Nat.cast_nonneg _) one_pos_rat.le
      have second : (0 : ℚ) ≤ more / one := div_nonneg (Nat.cast_nonneg _) one_pos_rat.le
      have none (count : Nat) (least : (count / one : ℚ) ≤ 0) : millionths count ≤ 0 := by
        have zero : (0 : ℚ) = (0 : Nat) / one := by rw [Nat.cast_zero, zero_div]
        exact (millionths_mono (least.trans_eq zero)).trans_eq millionths_zero
      change (units / one : ℚ) ≤ -(more / one) at le
      show millionths units ≤ -millionths more
      have unitsNone := none units (by linarith)
      have moreNone := none more (by linarith)
      linarith
  | true =>
    cases other with
    | false => exact (neg_nonpos.mpr (millionths_nonneg units)).trans (millionths_nonneg more)
    | true => exact neg_le_neg (millionths_mono (neg_le_neg_iff.mp le))

end Binary64

/-! ## Numbers -/

/-- How a number of some value is printed. -/
structure PlainDecimal.Prints (decimal : PlainDecimal) (x : Binary64) (exact : ℚ) : Prop where
  written : parameterText (.real x) = .ok (String.ofList decimal.text)
  read : DecimalText.value? decimal.text = some decimal.value
  few : decimal.fraction.length ≤ 6
  near : |decimal.value - exact| ≤ 1 / 2000000
  whole : ∀ n : ℤ, exact = n → decimal.value = n

theorem exists_prints (negative : Bool) (units : Nat) (fits : Representable units) :
    ∃ decimal : PlainDecimal, decimal.value = signed negative (Binary64.millionths units) ∧
      decimal.Prints (.finite negative units fits) (signed negative (units / Binary64.one)) := by
  obtain ⟨decimal, written, few⟩ := exists_decimal_of_realParameter negative units fits
  have value : decimal.value = signed negative (Binary64.millionths units) := by
    have read := value?_realParameter negative units fits
    rw [written, decimal.value?_text] at read
    exact Option.some.inj read
  refine ⟨decimal, value, congrArg (Except.ok ∘ String.ofList) written, decimal.value?_text, few,
    ?_, ?_⟩
  · rw [value, abs_signed_sub]
    exact Binary64.abs_millionths_sub_le units
  · intro n whole
    rw [value, Binary64.millionths_of_whole whole, whole]

/-- Every finite number is printed as a plain decimal of at most six places, which is off by at most
half a millionth, and not at all for a whole number. What is printed of a number that is not smaller
denotes no smaller decimal. -/
theorem printed_of_finite {x : Binary64} {exact : ℚ} (value : x.toRat? = some exact) :
    ∃ decimal : PlainDecimal, decimal.Prints x exact ∧
      ∀ (y : Binary64) (higher : ℚ), y.toRat? = some higher → exact ≤ higher →
        ∃ further : PlainDecimal, further.Prints y higher ∧ decimal.value ≤ further.value := by
  cases x with
  | nan => cases value
  | infinity => cases value
  | finite negative units fits =>
    cases value
    obtain ⟨decimal, rounded, prints⟩ := exists_prints negative units fits
    refine ⟨decimal, prints, fun y higher valueIs le => ?_⟩
    cases y with
    | nan => cases valueIs
    | infinity => cases valueIs
    | finite other more fitsMore =>
      cases valueIs
      obtain ⟨further, roundedMore, printsMore⟩ := exists_prints other more fitsMore
      refine ⟨further, printsMore, ?_⟩
      rw [rounded, roundedMore]
      exact Binary64.signed_millionths_mono le

/-- A number whose millionths carry to a whole one. -/
def nearlyOne : Binary64 :=
  .ofRatio false (Nat.pow 2 30 - 1) (Nat.pow 2 30)

/-- The number below one is printed like any other. -/
theorem printed_nearlyOne :
    nearlyOne.toRat? = some (1073741823 / 1073741824) ∧
      ∃ decimal : PlainDecimal, decimal.Prints nearlyOne (1073741823 / 1073741824) ∧
        ∀ (y : Binary64) (higher : ℚ), y.toRat? = some higher → 1073741823 / 1073741824 ≤ higher →
          ∃ further : PlainDecimal, further.Prints y higher ∧ decimal.value ≤ further.value := by
  have value : nearlyOne.toRat? = some (1073741823 / 1073741824) := by decide +kernel
  exact ⟨value, printed_of_finite value⟩

example : parameterText (.real nearlyOne) = .ok "1" := by decide +kernel
example : parameterText (.real (.ofRatio false 1000001 100000)) = .ok "10.00001" := by
  decide +kernel

end Montage
