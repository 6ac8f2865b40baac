import Mathlib.Data.List.TakeDrop
import Mathlib.Data.List.TakeWhile
import Montage.Timecode

/-!
# Clocks as text

How a clock is written: a minus if it is negative, and its three rows of digits with colons between
them. Main statements: `clock?_text_append`, that a clock is found at the front of a text that it
was written to, and `eq_text_append_of_clock?`, that every clock that is found was written there.
-/

namespace Montage

namespace Text

/-- A text that neither begins nor ends with a character to be dropped is kept as it is. -/
theorem stripWhere_of_edges {drop : Char → Bool} {text : List Char}
    (first : ∀ c ∈ text.head?, drop c = false) (last : ∀ c ∈ text.getLast?, drop c = false) :
    stripWhere drop text = text := by
  have kept : ∀ row : List Char, (∀ c ∈ row.head?, drop c = false) → row.dropWhile drop = row := by
    intro row edge
    cases row with
    | nil => rfl
    | cons c row => exact List.dropWhile_cons_of_neg (by simp [edge c rfl])
  have backwards : ∀ c ∈ text.reverse.head?, drop c = false := by
    rwa [List.head?_reverse]
  rw [stripWhere, kept text first, kept text.reverse backwards, List.reverse_reverse]

theorem strip_of_edges {text : List Char} (first : ∀ c ∈ text.head?, isBlank c = false)
    (last : ∀ c ∈ text.getLast?, isBlank c = false) :
    strip (String.ofList text) = String.ofList text := by
  rw [strip, String.toList_ofList, stripWhere_of_edges first last]

/-- A decimal digit of any script stands within ten places of the first digit of its set. -/
theorem exists_start_of_isDecimalDigit {c : Char} (digit : isDecimalDigit c = true) :
    ∃ start ∈ digitZeros, ∃ place < 10, c.toNat = start + place := by
  unfold isDecimalDigit digitValue? at digit
  split at digit
  · split at digit
    · next decimal =>
      simp only [Char.isDigit, Bool.and_eq_true, decide_eq_true_eq] at decimal
      have low : 48 ≤ c.toNat := decimal.1
      have high : c.toNat ≤ 57 := decimal.2
      exact ⟨0x30, by decide, c.toNat - 48, by omega, by omega⟩
    · cases digit
  · rw [Option.isSome_map] at digit
    obtain ⟨start, found⟩ := Option.isSome_iff_exists.mp digit
    have near := List.find?_some found
    simp only [Bool.and_eq_true, decide_eq_true_eq] at near
    exact ⟨start, List.mem_of_find?_eq_some found, c.toNat - start, by omega, by omega⟩

theorem isBlank_of_isDecimalDigit {c : Char} (digit : isDecimalDigit c = true) :
    isBlank c = false := by
  have apart : ∀ start ∈ digitZeros, ∀ place < 10,
      isBlank (Char.ofNat (start + place)) = false := by
    decide +kernel
  obtain ⟨start, listed, place, near, code⟩ := exists_start_of_isDecimalDigit digit
  rw [← Char.ofNat_toNat c, code]
  exact apart start listed place near

end Text

namespace Timecode

open Text

/-- The rows of digits of a clock with colons between them. -/
def Clock.rows (clock : Clock) : List Char :=
  clock.hours ++ ':' :: (clock.minutes ++ ':' :: clock.seconds)

/-- A clock as text. -/
def Clock.text (clock : Clock) : List Char :=
  if clock.negative then '-' :: clock.rows else clock.rows

/-- A clock of which every row is one of digits. -/
structure Clock.OfDigits (clock : Clock) : Prop where
  hours : ∀ c ∈ clock.hours, isDecimalDigit c = true
  minutes : ∀ c ∈ clock.minutes, isDecimalDigit c = true
  seconds : ∀ c ∈ clock.seconds, isDecimalDigit c = true

variable {clock : Clock}

theorem span_of_digits {digits rest : List Char} (all : ∀ c ∈ digits, isDecimalDigit c = true)
    (stop : ∀ c ∈ rest.head?, isDecimalDigit c = false) :
    (digits ++ rest).span isDecimalDigit = (digits, rest) := by
  have stopped : rest.takeWhile isDecimalDigit = [] ∧ rest.dropWhile isDecimalDigit = rest := by
    cases rest with
    | nil => exact ⟨rfl, rfl⟩
    | cons c rest => simp [stop c rfl]
  rw [List.span_eq_takeWhile_dropWhile, List.takeWhile_append_of_pos all,
    List.dropWhile_append_of_pos all, stopped.1, stopped.2, List.append_nil]

theorem takeMinus_text_append (digits : clock.OfDigits) (rest : List Char) :
    takeMinus (clock.text ++ rest) = (clock.negative, clock.rows ++ rest) := by
  obtain ⟨negative, hours, minutes, seconds⟩ := clock
  cases negative with
  | true => rfl
  | false =>
    cases hours with
    | nil => rfl
    | cons c hours =>
      have unsigned : c ≠ '-' := by
        rintro rfl
        have digit := digits.hours '-' (List.mem_cons_self ..)
        revert digit
        decide
      unfold takeMinus
      split
      · next same => exact absurd (List.cons.inj same).1 unsigned
      · rfl

/-- A clock that is written before anything but a digit is found again. -/
theorem clock?_text_append (digits : clock.OfDigits) {rest : List Char}
    (stop : ∀ c ∈ rest.head?, isDecimalDigit c = false) :
    clock? (clock.text ++ rest) = some (clock, rest) := by
  have colon : isDecimalDigit ':' = false := by decide
  have hours : (clock.hours ++ ':' :: (clock.minutes ++ ':' :: (clock.seconds ++ rest))).span
      isDecimalDigit = (clock.hours, ':' :: (clock.minutes ++ ':' :: (clock.seconds ++ rest))) :=
    span_of_digits digits.hours (by simpa using colon)
  have minutes : (clock.minutes ++ ':' :: (clock.seconds ++ rest)).span isDecimalDigit =
      (clock.minutes, ':' :: (clock.seconds ++ rest)) :=
    span_of_digits digits.minutes (by simpa using colon)
  have seconds := span_of_digits digits.seconds stop
  have laid : clock.rows ++ rest =
      clock.hours ++ ':' :: (clock.minutes ++ ':' :: (clock.seconds ++ rest)) := by
    simp [Clock.rows]
  unfold clock?
  rw [takeMinus_text_append digits, laid]
  simp only [hours, minutes, seconds]

/-- What is taken from the front of a text are digits, and nothing of the text is lost. -/
theorem eq_append_of_span {text digits rest : List Char}
    (parted : text.span isDecimalDigit = (digits, rest)) :
    text = digits ++ rest ∧ ∀ c ∈ digits, isDecimalDigit c = true := by
  rw [List.span_eq_takeWhile_dropWhile] at parted
  obtain ⟨rfl, rfl⟩ := Prod.mk.inj parted
  exact ⟨List.takeWhile_append_dropWhile.symm, fun c => List.mem_takeWhile_imp⟩

theorem eq_of_takeMinus {text body : List Char} {negative : Bool}
    (taken : takeMinus text = (negative, body)) :
    text = if negative then '-' :: body else body := by
  unfold takeMinus at taken
  split at taken
  · obtain ⟨rfl, rfl⟩ := Prod.mk.inj taken
    rfl
  · obtain ⟨rfl, rfl⟩ := Prod.mk.inj taken
    rfl

/-- A clock that is found at the front of a text was written there. -/
theorem eq_text_append_of_clock? {text rest : List Char}
    (found : clock? text = some (clock, rest)) : clock.OfDigits ∧ text = clock.text ++ rest := by
  unfold clock? at found
  split at found
  next negative body minus =>
  have textIs := eq_of_takeMinus minus
  split at found
  · next hours afterHours first =>
    obtain ⟨rfl, hourDigits⟩ := eq_append_of_span first
    split at found
    · next minutes afterMinutes second =>
      obtain ⟨rfl, minuteDigits⟩ := eq_append_of_span second
      generalize third : afterMinutes.span isDecimalDigit = parts at found
      obtain ⟨seconds, left⟩ := parts
      obtain ⟨rfl, secondDigits⟩ := eq_append_of_span third
      obtain ⟨rfl, rfl⟩ := Prod.mk.inj (Option.some.inj found)
      refine ⟨⟨hourDigits, minuteDigits, secondDigits⟩, ?_⟩
      rw [textIs]
      cases negative <;> simp [Clock.text, Clock.rows]
    · cases found
  · cases found

/-- A clock is found with nothing behind it exactly in the text that it is written as. -/
theorem clock?_eq_some_nil_iff {text : List Char} :
    clock? text = some (clock, []) ↔ clock.OfDigits ∧ text = clock.text := by
  constructor
  · intro found
    obtain ⟨digits, written⟩ := eq_text_append_of_clock? found
    exact ⟨digits, by rw [written, List.append_nil]⟩
  · rintro ⟨digits, rfl⟩
    rw [← List.append_nil clock.text]
    exact clock?_text_append digits (by simp)

/-- A mark that is written without a fraction neither begins nor ends with a blank. -/
theorem stripWhere_text_of_isMark (digits : clock.OfDigits) (mark : clock.isMark = true) :
    stripWhere isBlank clock.text = clock.text := by
  obtain ⟨negative, hours, minutes, seconds⟩ := clock
  simp only [Clock.isMark, Bool.and_eq_true, Bool.or_eq_true, beq_iff_eq, decide_eq_true_eq] at mark
  obtain ⟨⟨someHours, -⟩, someSeconds⟩ := mark
  obtain ⟨first, hours, rfl⟩ := List.exists_cons_of_length_pos someHours
  have present : seconds ≠ [] := by
    rintro rfl
    simp at someSeconds
  refine stripWhere_of_edges ?_ ?_
  · intro c edge
    cases negative with
    | true =>
      obtain rfl := Option.some.inj edge
      decide
    | false =>
      obtain rfl := Option.some.inj edge
      exact isBlank_of_isDecimalDigit (digits.hours _ (List.mem_cons_self ..))
  · intro c edge
    have last : c ∈ seconds.getLast? := by
      cases negative with
      | true => simpa [Clock.text, Clock.rows, List.getLast?_append, List.getLast?_cons,
          List.getLast?_eq_some_getLast present] using edge
      | false => simpa [Clock.text, Clock.rows, List.getLast?_append, List.getLast?_cons,
          List.getLast?_eq_some_getLast present] using edge
    exact isBlank_of_isDecimalDigit (digits.seconds _ (List.mem_of_getLast? last))

end Timecode

end Montage
