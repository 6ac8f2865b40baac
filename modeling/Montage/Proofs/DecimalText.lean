import Mathlib.Algebra.Order.Field.Rat
import Mathlib.Data.List.DropRight
import Mathlib.Data.List.TakeDrop
import Montage.Filtergraph.Op
import Montage.Proofs.Labels
import Montage.Proofs.RealBounds

/-!
# Numbers as parameters

A number is written with at most six decimal places, rounded from its exact value, so what is
written may denote another number. `DecimalText.value?` says which number a text denotes, and
`Binary64.toRat?` which one a number is. Main statements: `value?_realParameter`, and
`isDigit_or_mem_of_mem_realParameter` for the characters that a number is written with.
-/

namespace Montage

/-! ## What a text denotes -/

namespace DecimalText

/-- The number that digits denote which may have a point among them, but not at either end. -/
def magnitude? (text : List Char) : Option ℚ :=
  match text.span Char.isDigit with
  | ([], _) => none
  | (whole, []) => some (Nat.ofDigitChars 10 whole 0)
  | (whole, '.' :: fraction) =>
    if fraction ≠ [] ∧ fraction.all Char.isDigit then
      some (Nat.ofDigitChars 10 (whole ++ fraction) 0 / 10 ^ fraction.length)
    else none
  | _ => none

/-- The number that decimal text denotes, which may have a minus in front. -/
def value? : List Char → Option ℚ
  | '-' :: text => (magnitude? text).map (-·)
  | text => magnitude? text

variable {whole fraction text : List Char}

theorem span_digits (rest : List Char) (digits : ∀ c ∈ whole, c.isDigit = true)
    (stop : ∀ c ∈ rest.head?, c.isDigit = false) :
    (whole ++ rest).span Char.isDigit = (whole, rest) := by
  rw [List.span_eq_takeWhile_dropWhile, List.takeWhile_append_of_pos digits,
    List.dropWhile_append_of_pos digits]
  cases rest with
  | nil => rw [List.takeWhile_nil, List.dropWhile_nil, List.append_nil]
  | cons c rest =>
    have stops : ¬ c.isDigit = true := by simp [stop c rfl]
    rw [List.takeWhile_cons_of_neg stops, List.dropWhile_cons_of_neg stops, List.append_nil]

theorem magnitude?_whole (digits : ∀ c ∈ whole, c.isDigit = true) (present : whole ≠ []) :
    magnitude? whole = some (Nat.ofDigitChars 10 whole 0 : ℚ) := by
  have spanned := span_digits [] digits nofun
  rw [List.append_nil] at spanned
  rw [magnitude?, spanned]
  cases whole with
  | nil => exact absurd rfl present
  | cons c whole => rfl

theorem magnitude?_point (digits : ∀ c ∈ whole, c.isDigit = true) (present : whole ≠ [])
    (places : ∀ c ∈ fraction, c.isDigit = true) (given : fraction ≠ []) :
    magnitude? (whole ++ '.' :: fraction) =
      some (Nat.ofDigitChars 10 (whole ++ fraction) 0 / 10 ^ fraction.length : ℚ) := by
  have spanned := span_digits ('.' :: fraction) digits (by simp)
  rw [magnitude?, spanned]
  cases whole with
  | nil => exact absurd rfl present
  | cons c whole => exact if_pos ⟨given, List.all_eq_true.mpr places⟩

/-- A minus in front of digits is the sign of what they denote. -/
theorem value?_sign (negative : Bool) (starts : ∃ c rest, text = c :: rest ∧ c.isDigit = true) :
    value? ((if negative then ['-'] else []) ++ text) =
      (magnitude? text).map fun magnitude => if negative then -magnitude else magnitude := by
  cases negative with
  | true => rfl
  | false =>
    obtain ⟨c, rest, rfl, digit⟩ := starts
    show value? (c :: rest) = (magnitude? (c :: rest)).map id
    rw [Option.map_id_fun, id, value?]
    rintro _ ⟨⟩
    cases digit

end DecimalText

/-! ## Zeros at the end -/

/-- Places without the zeros at their end. -/
def keptPlaces (fraction : List Char) : List Char :=
  fraction.rdropWhile (· == '0')

theorem exists_zeros (fraction : List Char) :
    ∃ count, fraction = keptPlaces fraction ++ List.replicate count '0' := by
  refine ⟨(fraction.rtakeWhile (· == '0')).length, ?_⟩
  have zeros : ∀ c ∈ fraction.rtakeWhile (· == '0'), c = '0' := by
    intro c present
    simpa using List.mem_rtakeWhile_imp present
  rw [← List.eq_replicate_of_mem zeros]
  exact List.rdropWhile_append_rtakeWhile.symm

/-- Zeros behind the last place do not change what digits denote. -/
theorem ofDigitChars_zeros (digits : List Char) (places count : Nat) :
    (Nat.ofDigitChars 10 (digits ++ List.replicate count '0') 0 / 10 ^ (places + count) : ℚ) =
      Nat.ofDigitChars 10 digits 0 / 10 ^ places := by
  have nonzero : (10 : ℚ) ^ count ≠ 0 := pow_ne_zero count (by decide)
  rw [Nat.ofDigitChars_append, Nat.ofDigitChars_replicate_zero, Nat.cast_mul, Nat.cast_pow,
    Nat.cast_ofNat, pow_add, mul_comm ((10 : ℚ) ^ places), mul_div_mul_left _ _ nonzero]

theorem dropWhile_point {c : Char} {rest : List Char} (digit : c.isDigit = true) :
    (c :: rest).dropWhile (· == '.') = c :: rest := by
  refine List.dropWhile_cons_of_neg fun point => ?_
  rw [eq_of_beq point] at digit
  cases digit

/-- The zeros at the end of the places behind a point are dropped, and the point with the last
place. -/
theorem dropTrailingZeros_point (sign : List Char) {whole fraction : List Char}
    (digits : ∀ c ∈ whole, c.isDigit = true) (present : whole ≠ [])
    (places : ∀ c ∈ fraction, c.isDigit = true) :
    dropTrailingZeros (sign ++ (whole ++ '.' :: fraction)) =
      sign ++ (whole ++ if keptPlaces fraction = [] then [] else '.' :: keptPlaces fraction) := by
  unfold dropTrailingZeros keptPlaces List.rdropWhile
  rw [← List.append_assoc, List.reverse_append, List.reverse_cons, List.append_assoc,
    List.singleton_append, List.dropWhile_append]
  cases kept : fraction.reverse.dropWhile (· == '0') with
  | nil =>
    simp only [List.isEmpty_nil, if_true, List.reverse_nil, List.append_nil]
    rw [List.dropWhile_cons_of_neg (by decide), List.dropWhile_cons_of_pos (by decide),
      List.reverse_append]
    cases reversed : whole.reverse with
    | nil => exact absurd (List.reverse_eq_nil_iff.mp reversed) present
    | cons c rest =>
      have inWhole : c ∈ whole := List.mem_reverse.mp (reversed ▸ List.mem_cons_self)
      rw [List.cons_append, dropWhile_point (digits c inWhole), ← List.cons_append, ← reversed,
        ← List.reverse_append, List.reverse_reverse]
  | cons c rest =>
    have inFraction : c ∈ fraction := by
      rw [← List.mem_reverse]
      exact List.dropWhile_subset _ (kept ▸ List.mem_cons_self)
    simp only [List.isEmpty_cons, Bool.false_eq_true, if_false, List.cons_append]
    rw [dropWhile_point (places c inFraction), if_neg (by simp)]
    simp

/-- Dropping the zeros does not change what is denoted. -/
theorem magnitude?_dropTrailingZeros {whole fraction : List Char}
    (digits : ∀ c ∈ whole, c.isDigit = true) (present : whole ≠ [])
    (places : ∀ c ∈ fraction, c.isDigit = true) :
    DecimalText.magnitude? (dropTrailingZeros (whole ++ '.' :: fraction)) =
      some (Nat.ofDigitChars 10 (whole ++ fraction) 0 / 10 ^ fraction.length : ℚ) := by
  obtain ⟨count, zeros⟩ := exists_zeros fraction
  have scaled : (Nat.ofDigitChars 10 (whole ++ fraction) 0 / 10 ^ fraction.length : ℚ) =
      Nat.ofDigitChars 10 (whole ++ keptPlaces fraction) 0 / 10 ^ (keptPlaces fraction).length := by
    have length : fraction.length = (keptPlaces fraction).length + count := by
      simpa using congrArg List.length zeros
    rw [← ofDigitChars_zeros (whole ++ keptPlaces fraction) _ count, ← length, List.append_assoc,
      ← zeros]
  have dropped := dropTrailingZeros_point [] digits present places
  rw [List.nil_append, List.nil_append] at dropped
  rw [dropped, scaled]
  split
  · next none_kept =>
    rw [none_kept, List.append_nil, DecimalText.magnitude?_whole digits present]
    simp
  · next some_kept =>
    refine DecimalText.magnitude?_point digits present ?_ some_kept
    exact fun c kept => places c ((List.rdropWhile_prefix _ fraction).subset kept)

/-! ## Fixed places -/

theorem isDigit_of_mem_paddedDigits {width n : Nat} {c : Char}
    (present : c ∈ paddedDigits width n) : c.isDigit = true := by
  rcases List.mem_append.mp present with zero | digit
  · rw [List.eq_of_mem_replicate zero]
    rfl
  · exact isDigit_of_mem_toDigits digit

theorem ofDigitChars_paddedDigits (width n : Nat) :
    Nat.ofDigitChars 10 (paddedDigits width n) 0 = n := by
  rw [paddedDigits, List.leftpad, Nat.ofDigitChars_append, Nat.ofDigitChars_replicate_zero,
    Nat.mul_zero, Nat.ofDigitChars_ten_toDigits]

/-- The digits before the point and behind it, which together are those of the rounded count. -/
theorem exists_parts_of_fixedDigits {places : Nat} (some_places : places ≠ 0) (units : Nat) :
    ∃ whole fraction, Binary64.fixedDigits places units = whole ++ '.' :: fraction ∧
      whole ≠ [] ∧ (∀ c ∈ whole, c.isDigit = true) ∧ (∀ c ∈ fraction, c.isDigit = true) ∧
      fraction.length = places ∧
      Nat.ofDigitChars 10 (whole ++ fraction) 0 = Binary64.placeCount places units := by
  generalize counted : paddedDigits (places + 1) (Binary64.placeCount places units) = digits
  have long : places + 1 ≤ digits.length := by
    rw [← counted, paddedDigits, List.length_leftpad]
    exact Nat.le_max_left _ _
  have all : ∀ c ∈ digits, c.isDigit = true := by
    rw [← counted]
    exact fun c present => isDigit_of_mem_paddedDigits present
  refine ⟨digits.take (digits.length - places), digits.drop (digits.length - places), ?_, ?_,
    fun c present => all c (List.mem_of_mem_take present),
    fun c present => all c (List.mem_of_mem_drop present), ?_, ?_⟩
  · rw [Binary64.fixedDigits, counted, if_neg some_places]
  · rw [Ne, List.take_eq_nil_iff]
    rintro (none | none)
    · omega
    · rw [none] at long
      cases long
  · rw [List.length_drop]
    omega
  · rw [List.take_append_drop, ← counted, ofDigitChars_paddedDigits]

/-! ## Numbers -/

namespace Binary64

/-- The exact value of a finite number. -/
def toRat? : Binary64 → Option ℚ
  | .finite negative units _ => some (if negative then -(units / one) else units / one)
  | _ => none

theorem one_pos_rat : (0 : ℚ) < one :=
  Nat.cast_pos.mpr pos_units_one

theorem toRat?_mul_one (negative : Bool) (n : Nat) (exact : Representable (n * one)) :
    (finite negative (n * one) exact).toRat? = some (if negative then -(n : ℚ) else n) := by
  rw [toRat?, Nat.cast_mul, mul_div_cancel_right₀ _ one_pos_rat.ne']

theorem placeCount_mul_one (places n : Nat) : placeCount places (n * one) = n * 10 ^ places := by
  rw [placeCount, Nat.mul_right_comm, roundQuotient_mul_right _ pos_units_one]
  rfl

theorem placeCount_of_whole {units : Nat} (places : Nat) (whole : units % one = 0) :
    placeCount places units = units / one * 10 ^ places := by
  rw [← placeCount_mul_one, Nat.div_mul_cancel (Nat.dvd_of_mod_eq_zero whole)]

/-- A number is written as zero if it is no greater than half of the last place. -/
theorem placeCount_eq_zero_iff {places units : Nat} :
    placeCount places units = 0 ↔ 2 * (units * 10 ^ places) ≤ one :=
  roundQuotient_eq_zero_iff pos_units_one

end Binary64

/-- The exact value of a finite number. -/
def Value.toRat? (value : Value) : Option ℚ :=
  match value.number? with
  | some (.whole n) => some n
  | some (.real x) => x.toRat?
  | none => none

theorem exists_cons_digit {whole : List Char} (digits : ∀ c ∈ whole, c.isDigit = true)
    (present : whole ≠ []) (rest : List Char) :
    ∃ c more, whole ++ rest = c :: more ∧ c.isDigit = true := by
  cases whole with
  | nil => exact absurd rfl present
  | cons c whole => exact ⟨c, whole ++ rest, rfl, digits c List.mem_cons_self⟩

theorem realParameter_finite (negative : Bool) (units : Nat) (exact : Representable units) :
    realParameter (.finite negative units exact) =
      if units % Binary64.one = 0 then
        (if negative && units / Binary64.one != 0 then ['-'] else []) ++
          Nat.toDigits 10 (units / Binary64.one)
      else
        dropTrailingZeros ((if negative then ['-'] else []) ++ Binary64.fixedDigits 6 units) := by
  unfold realParameter
  simp only [Binary64.isWhole, beq_iff_eq, Binary64.fixedPlaces]

/-- What is written of a finite number is its value to six places. -/
theorem value?_realParameter (negative : Bool) (units : Nat) (exact : Representable units) :
    DecimalText.value? (realParameter (.finite negative units exact)) =
      some (if negative then -(Binary64.placeCount 6 units / 10 ^ 6 : ℚ)
        else Binary64.placeCount 6 units / 10 ^ 6) := by
  rw [realParameter_finite]
  by_cases whole : units % Binary64.one = 0
  · have digits : ∀ c ∈ Nat.toDigits 10 (units / Binary64.one), c.isDigit = true :=
      fun c => isDigit_of_mem_toDigits
    have starts := exists_cons_digit digits Nat.toDigits_ne_nil []
    have value : (Binary64.placeCount 6 units / 10 ^ 6 : ℚ) = (units / Binary64.one : Nat) := by
      rw [Binary64.placeCount_of_whole 6 whole, Nat.cast_mul, Nat.cast_pow, Nat.cast_ofNat]
      exact mul_div_cancel_right₀ _ (pow_ne_zero 6 (by decide))
    rw [List.append_nil] at starts
    rw [if_pos whole, DecimalText.value?_sign _ starts,
      DecimalText.magnitude?_whole digits Nat.toDigits_ne_nil, Nat.ofDigitChars_ten_toDigits, value]
    -- A zero is written without its sign.
    cases negative with
    | false => rfl
    | true => by_cases zero : units / Binary64.one = 0 <;> simp [zero]
  · obtain ⟨front, fraction, split, present, digits, places, length, counted⟩ :=
      exists_parts_of_fixedDigits (show 6 ≠ 0 by decide) units
    have dropped := dropTrailingZeros_point [] digits present places
    rw [List.nil_append, List.nil_append] at dropped
    have starts := exists_cons_digit digits present
      (if keptPlaces fraction = [] then [] else '.' :: keptPlaces fraction)
    rw [if_neg whole, split, dropTrailingZeros_point _ digits present places,
      DecimalText.value?_sign _ starts, ← dropped,
      magnitude?_dropTrailingZeros digits present places, counted, length]
    rfl

theorem value?_decimalText (n : Int) :
    DecimalText.value? (decimalText n).toList = some (n : ℚ) := by
  have digits : ∀ c ∈ Nat.toDigits 10 n.natAbs, c.isDigit = true := fun c => isDigit_of_mem_toDigits
  have starts := exists_cons_digit digits Nat.toDigits_ne_nil []
  have signed := DecimalText.value?_sign (decide (n < 0)) starts
  rw [List.append_nil, DecimalText.magnitude?_whole digits Nat.toDigits_ne_nil,
    Nat.ofDigitChars_ten_toDigits, Option.map_some] at signed
  simp only [decide_eq_true_eq] at signed
  rw [toList_decimalText, signed, ← Int.cast_natCast]
  by_cases negative : n < 0
  · rw [if_pos negative, Int.ofNat_natAbs_of_nonpos (Int.le_of_lt negative), Int.cast_neg, neg_neg]
  · rw [if_neg negative, Int.natAbs_of_nonneg (Int.not_lt.mp negative)]

example : DecimalText.value? "-0.25".toList = some (-1 / 4) := by decide +kernel

/-! ## Characters -/

theorem dropTrailingZeros_subset (text : List Char) : dropTrailingZeros text ⊆ text := by
  intro c present
  have kept := List.dropWhile_subset _ (List.mem_reverse.mp present)
  exact List.mem_reverse.mp (List.dropWhile_subset _ kept)

/-- A real number is written with digits, a sign, a point, and the letters of the names that are
written for what is not finite. -/
theorem isDigit_or_mem_of_mem_realParameter {x : Binary64} {c : Char}
    (present : c ∈ realParameter x) : c.isDigit = true ∨ c ∈ ['-', '.', 'n', 'a', 'i', 'f'] := by
  have signed : ∀ {negative : Bool}, c ∈ (if negative then ['-'] else []) → c = '-' := by
    intro negative inSign
    cases negative with
    | true => exact List.mem_singleton.mp inSign
    | false => cases inSign
  cases x with
  | nan => exact .inr ((by decide : ['n', 'a', 'n'] ⊆ _) present)
  | infinity negative =>
    cases negative with
    | true => exact .inr ((by decide : ['-', 'i', 'n', 'f'] ⊆ _) present)
    | false => exact .inr ((by decide : ['i', 'n', 'f'] ⊆ _) present)
  | finite negative units exact =>
    rw [realParameter_finite] at present
    split at present
    · rcases List.mem_append.mp present with sign | digit
      · exact .inr (by rw [signed sign]; decide)
      · exact .inl (isDigit_of_mem_toDigits digit)
    · rcases List.mem_append.mp (dropTrailingZeros_subset _ present) with sign | inDigits
      · exact .inr (by rw [signed sign]; decide)
      · obtain ⟨whole, fraction, split, _, digits, places, _⟩ :=
          exists_parts_of_fixedDigits (show 6 ≠ 0 by decide) units
        rw [split, List.mem_append, List.mem_cons] at inDigits
        rcases inDigits with inWhole | rfl | inFraction
        · exact .inl (digits c inWhole)
        · exact .inr (by decide)
        · exact .inl (places c inFraction)

end Montage
