import Mathlib.Data.Rat.Floor
import Montage.Proofs.DecimalText
import Montage.Proofs.TimecodeGrammar

/-!
# Printed times

A count of seconds is printed as the clock that shows it: at least two digits of hours, two each of
minutes and seconds, and a minus for what is below zero (`Clock.ofSeconds`). Of a number with a
fraction the whole seconds are printed, and the sign of the number even if they are none. Main
statement: `rereads_format`, that what is printed is read as the seconds that it was printed for.
-/

namespace Montage

namespace Text

theorem getD_digitValue?_lt (c : Char) : (digitValue? c).getD 0 < 10 := by
  cases valued : digitValue? c with
  | none => decide
  | some value =>
    have digit : isDecimalDigit c = true := by rw [isDecimalDigit, valued]; rfl
    unfold digitValue? at valued
    split at valued
    · split at valued
      · next decimal =>
        simp only [Char.isDigit, Bool.and_eq_true, decide_eq_true_eq] at decimal
        have high : c.toNat ≤ 57 := decimal.2
        cases valued
        show c.toNat - 48 < 10
        omega
      · cases valued
    · obtain ⟨first, found, rfl⟩ := Option.map_eq_some_iff.mp valued
      have near := List.find?_some found
      simp only [Bool.and_eq_true, decide_eq_true_eq] at near
      show c.toNat - first < 10
      omega

/-- So many digits denote less than that power of ten. -/
theorem digitsValue_lt (digits : List Char) : digitsValue digits < 10 ^ digits.length := by
  induction digits using List.reverseRecOn with
  | nil => exact Nat.one_pos
  | append_singleton digits c ih =>
    have last := getD_digitValue?_lt c
    have value : digitsValue (digits ++ [c]) =
        10 * digitsValue digits + (digitValue? c).getD 0 := by
      rw [digitsValue, List.foldl_append]
      rfl
    rw [value, List.length_append, List.length_singleton, Nat.pow_succ]
    omega

/-- Digits of the Latin script denote what their places say. -/
theorem digitsValue_of_isDigit {digits : List Char} (all : ∀ c ∈ digits, c.isDigit = true) :
    digitsValue digits = Nat.ofDigitChars 10 digits 0 := by
  rw [Nat.ofDigitChars_eq_foldl, digitsValue]
  refine List.foldl_ext _ _ _ fun total c present => ?_
  have digit := all c present
  have low : c.toNat < 128 := by
    simp only [Char.isDigit, Bool.and_eq_true, decide_eq_true_eq] at digit
    exact Nat.lt_of_le_of_lt (show c.toNat ≤ 57 from digit.2) (by decide)
  rw [digitValue?, if_pos low, if_pos digit]
  rfl

theorem digitsValue_paddedDigits (width n : Nat) : digitsValue (paddedDigits width n) = n := by
  rw [digitsValue_of_isDigit fun c => isDigit_of_mem_paddedDigits, ofDigitChars_paddedDigits]

end Text

theorem length_paddedDigits_two {n : Nat} (small : n < 100) : (paddedDigits 2 n).length = 2 := by
  have short := (Nat.length_toDigits_le_iff (b := 10) (k := 2) (by decide) (by decide)).mpr small
  rw [paddedDigits, List.length_leftpad, Nat.max_eq_left short]

/-- A number without its fraction. -/
def towardsZero (q : ℚ) : ℤ :=
  if q < 0 then ⌈q⌉ else ⌊q⌋

theorem towardsZero_natCast_div (m n : Nat) : towardsZero (m / n) = (m / n : Nat) := by
  have nonneg : (0 : ℚ) ≤ m / n := div_nonneg (Nat.cast_nonneg m) (Nat.cast_nonneg n)
  rw [towardsZero, if_neg (not_lt.mpr nonneg), Rat.floor_natCast_div_natCast, Int.natCast_ediv]

theorem towardsZero_neg (q : ℚ) : towardsZero (-q) = -towardsZero q := by
  unfold towardsZero
  rcases lt_trichotomy q 0 with below | rfl | above
  · rw [if_neg (by linarith), if_pos below, Int.floor_neg]
  · simp
  · rw [if_pos (by linarith), if_neg (not_lt.mpr above.le), Int.ceil_neg]

namespace Timecode

open Text

variable {text : String} {clock : Clock}

/-- The rows of a timecode are those of a progress mark as well. -/
theorem isMark_of_isTimecode (timecode : clock.isTimecode = true) : clock.isMark = true := by
  obtain ⟨hours, minutes, seconds⟩ := isTimecode_iff.mp timecode
  simp [Clock.isMark, minutes, seconds, Nat.le_of_succ_le hours]

/-! ## The clock of a count of seconds -/

/-- The clock that shows a count of seconds. -/
def Clock.ofSeconds (negative : Bool) (seconds : Nat) : Clock where
  negative := negative
  hours := paddedDigits 2 (seconds / 3600)
  minutes := paddedDigits 2 (seconds % 3600 / 60)
  seconds := paddedDigits 2 (seconds % 60)

theorem digits_ofSeconds (negative : Bool) (seconds : Nat) :
    (Clock.ofSeconds negative seconds).OfDigits := by
  have padded : ∀ n, ∀ c ∈ paddedDigits 2 n, isDecimalDigit c = true :=
    fun n c present => isDecimalDigit_of_isDigit (isDigit_of_mem_paddedDigits present)
  exact ⟨padded _, padded _, padded _⟩

/-- A clock that shows a count of seconds is written as a timecode. -/
theorem writes_ofSeconds (negative : Bool) (seconds : Nat) :
    (Clock.ofSeconds negative seconds).Writes
      (String.ofList (Clock.ofSeconds negative seconds).text) := by
  have hours : 2 ≤ (paddedDigits 2 (seconds / 3600)).length := by
    rw [paddedDigits, List.length_leftpad]
    exact Nat.le_max_left _ _
  have minutes : (paddedDigits 2 (seconds % 3600 / 60)).length = 2 :=
    length_paddedDigits_two (by omega)
  have rest : (paddedDigits 2 (seconds % 60)).length = 2 := length_paddedDigits_two (by omega)
  have mark : (Clock.ofSeconds negative seconds).isMark = true :=
    isMark_of_isTimecode (isTimecode_iff.mpr ⟨hours, minutes, rest⟩)
  have digits := digits_ofSeconds negative seconds
  refine ⟨?_, digits, hours, minutes, rest, ?_, ?_⟩
  · rw [String.toList_ofList, stripWhere_text_of_isMark digits mark]
  · show digitsValue (paddedDigits 2 (seconds % 3600 / 60)) < 60
    rw [digitsValue_paddedDigits]
    omega
  · show digitsValue (paddedDigits 2 (seconds % 60)) < 60
    rw [digitsValue_paddedDigits]
    omega

theorem total_ofSeconds (negative : Bool) (seconds : Nat) :
    (Clock.ofSeconds negative seconds).total = if negative then -(seconds : Int) else seconds := by
  have whole : seconds / 3600 * 3600 + seconds % 3600 / 60 * 60 + seconds % 60 = seconds := by omega
  rw [Clock.total, Clock.hourSeconds]
  simp only [Clock.ofSeconds, digitsValue_paddedDigits, whole]

/-- Hours can be printed as long as they have no more digits than a number may have. -/
theorem formatWhole_of_lt (negative : Bool) {seconds : Nat}
    (few : seconds < 3600 * 10 ^ maxDigits) :
    formatWhole negative seconds =
      .ok (String.ofList (Clock.ofSeconds negative seconds).text) := by
  have hours : seconds / 3600 < 10 ^ maxDigits := Nat.div_lt_of_lt_mul few
  rw [formatWhole, wholeText, Int.natAbs_natCast, Nat.pow_eq, if_pos hours]
  cases negative <;>
    simp [Clock.text, Clock.rows, Clock.ofSeconds, bind, Except.bind, pure, Except.pure]

theorem length_hours_ofSeconds (negative : Bool) {seconds : Nat}
    (few : seconds < 3600 * 10 ^ maxDigits) :
    (Clock.ofSeconds negative seconds).hours.length ≤ maxDigits := by
  have hours : seconds / 3600 < 10 ^ maxDigits := Nat.div_lt_of_lt_mul few
  have some_digits : 0 < maxDigits := by decide
  have short := (Nat.length_toDigits_le_iff (by decide) some_digits).mpr hours
  rw [Clock.ofSeconds, paddedDigits, List.length_leftpad]
  exact Nat.max_le.mpr ⟨by decide, short⟩

/-! ## Reading what was printed -/

/-- Whether a number of seconds is printed, and what is printed is read as so many seconds. -/
def Rereads (given : Value) (seconds : Int) : Prop :=
  ∃ text, format given = .ok text ∧ parse text = .ok seconds

theorem rereads_of_formatWhole {given : Value} {negative : Bool} {seconds : Nat}
    (printed : format given = formatWhole negative seconds)
    (few : seconds < 3600 * 10 ^ maxDigits) :
    Rereads given (if negative then -(seconds : Int) else seconds) := by
  refine ⟨_, printed.trans (formatWhole_of_lt negative few), ?_⟩
  rw [parse_of_writes (writes_ofSeconds negative seconds),
    if_neg (Nat.not_lt.mpr (length_hours_ofSeconds negative few)), total_ofSeconds]

theorem format_int (n : Int) :
    format (.int n) = formatWhole (decide (n < 0)) n.natAbs := by
  have sign : (Number.whole n).lt (.whole 0) = decide (n < 0) :=
    Bool.eq_iff_iff.mpr ((Number.lt_whole_iff n 0).trans decide_eq_true_iff.symm)
  simp only [format, Value.number_int, bind, Except.bind, Number.abs, Number.truncate, sign,
    Int.toNat_natCast]

theorem format_real (negative : Bool) (units : Nat) (exact : Representable units) :
    format (.real (.finite negative units exact)) =
      formatWhole (decide ((if negative then -(units : Int) else units) < 0))
        (units / Binary64.one) := by
  have sign : (Number.real (.finite negative units exact)).lt (.whole 0) =
      decide ((if negative then -(units : Int) else units) < 0) := by
    rw [Number.lt_of_compare? rfl, Int.zero_mul]
  simp only [format, Value.number, Value.number?, bind, Except.bind, Number.abs, Binary64.abs,
    Number.truncate, Binary64.truncate?, sign, Option.getD_some, Bool.false_eq_true, if_false,
    Int.toNat_natCast]

theorem rereads_int {n : Int} (few : n.natAbs < 3600 * 10 ^ maxDigits) : Rereads (.int n) n := by
  have read := rereads_of_formatWhole (format_int n) few
  by_cases below : n < 0
  · rwa [decide_eq_true below, if_pos rfl, Int.ofNat_natAbs_of_nonpos below.le, neg_neg] at read
  · rwa [decide_eq_false below, if_neg Bool.false_ne_true,
      Int.natAbs_of_nonneg (Int.not_lt.mp below)] at read

/-- No number of seconds has too many hours to be printed. -/
theorem whole_lt_of_representable {units : Nat} (exact : Representable units) :
    units / Binary64.one < 3600 * 10 ^ maxDigits := by
  have places : sizeLimit ≤ maxDigits := by decide
  obtain ⟨within, -⟩ := exact
  rw [Nat.pow_eq] at within
  generalize sizeLimit = size, maxDigits = digits at within places ⊢
  calc
    units / Binary64.one ≤ units := Nat.div_le_self _ _
    _ < 2 ^ size := within
    _ ≤ 10 ^ size := Nat.pow_le_pow_left (by decide) _
    _ ≤ 10 ^ digits := Nat.pow_le_pow_right (by decide) places
    _ ≤ 3600 * 10 ^ digits := Nat.le_mul_of_pos_left _ (by decide)

theorem rereads_real {x : Binary64} {q : ℚ} (valued : x.toRat? = some q) :
    Rereads (.real x) (towardsZero q) := by
  cases x with
  | nan | infinity _ => cases valued
  | finite negative units exact =>
    obtain rfl := Option.some.inj valued
    have read := rereads_of_formatWhole (format_real negative units exact)
      (whole_lt_of_representable exact)
    cases negative with
    | false =>
      rw [if_neg Bool.false_ne_true, decide_eq_false (by omega), if_neg Bool.false_ne_true] at read
      rwa [if_neg Bool.false_ne_true, towardsZero_natCast_div]
    | true =>
      rw [if_pos rfl] at read ⊢
      rw [towardsZero_neg, towardsZero_natCast_div]
      -- A zero is printed without its sign, and is read as zero all the same.
      rcases Nat.eq_zero_or_pos units with rfl | some_units
      · rw [Nat.zero_div] at read ⊢
        exact read
      · rwa [decide_eq_true (by omega), if_pos rfl] at read

/-! ## Printing what was read -/

/-- What is read as seconds is a timecode with no more digits of hours than a number may have. -/
theorem exists_writes_of_parse {seconds : Int} (read : parse text = .ok seconds) :
    ∃ clock : Clock, clock.Writes text ∧ clock.hours.length ≤ maxDigits ∧
      clock.total = seconds := by
  by_cases timecode : ∃ clock : Clock, clock.Writes text
  · obtain ⟨clock, writes⟩ := timecode
    rw [parse_of_writes writes] at read
    split at read
    · cases read
    · next short => exact ⟨clock, writes, Nat.le_of_not_lt short, Except.ok.inj read⟩
  · obtain ⟨fault, refused⟩ := parse_of_not_writes timecode
    rw [refused] at read
    cases read

theorem natAbs_total (clock : Clock) :
    clock.total.natAbs = clock.hourSeconds + digitsValue clock.seconds := by
  unfold Clock.total
  cases clock.negative with
  | false => rfl
  | true => exact Int.natAbs_neg _

/-- What is read can be printed. -/
theorem natAbs_lt_of_parse {seconds : Int} (read : parse text = .ok seconds) :
    seconds.natAbs < 3600 * 10 ^ maxDigits := by
  obtain ⟨clock, writes, short, rfl⟩ := exists_writes_of_parse read
  have hours : digitsValue clock.hours < 10 ^ maxDigits :=
    Nat.lt_of_lt_of_le (digitsValue_lt _) (Nat.pow_le_pow_right (by decide) short)
  have minutes := writes.minutesBelow
  have rest := writes.secondsBelow
  rw [natAbs_total, Clock.hourSeconds]
  generalize 10 ^ maxDigits = limit at hours ⊢
  omega

/-- What is printed of a whole number of seconds is read as that number, as long as its hours have
no more digits than a number may have; what is printed of a real number is read as that number
without its fraction; and what was read is printed as a timecode that is read the same. -/
theorem rereads_format :
    (∀ n : Int, n.natAbs < 3600 * 10 ^ maxDigits → Rereads (.int n) n) ∧
      (∀ (x : Binary64) (q : ℚ), x.toRat? = some q → Rereads (.real x) (towardsZero q)) ∧
      (∀ (text : String) (seconds : Int), parse text = .ok seconds →
        Rereads (.int seconds) seconds) :=
  ⟨fun _ few => rereads_int few, fun _ _ valued => rereads_real valued,
    fun _ _ read => rereads_int (natAbs_lt_of_parse read)⟩

/-- Half a second before the start is printed with a minus and read as none. -/
theorem rereads_half_second :
    format (.real (.ofRatio true 1 2)) = .ok "-00:00:00" ∧
      Rereads (.int (-360000)) (-360000) ∧ Rereads (.real (.ofRatio true 1 2)) 0 ∧
      parse " 100:00:01" = .ok 360001 ∧ Rereads (.int 360001) 360001 := by
  have half : (Binary64.ofRatio true 1 2).toRat? = some (-1 / 2) := by decide +kernel
  have read : parse " 100:00:01" = .ok 360001 := by decide +kernel
  refine ⟨by decide +kernel, rereads_format.1 _ (by decide +kernel), ?_, read,
    rereads_format.2.2 _ _ read⟩
  have none : towardsZero (-1 / 2) = 0 := by decide +kernel
  rw [← none]
  exact rereads_format.2.1 _ _ half

end Timecode

end Montage
