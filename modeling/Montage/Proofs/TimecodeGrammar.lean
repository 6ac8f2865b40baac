import Montage.Proofs.ClockRows

/-!
# The grammar of timecodes

A timecode is an optional minus, two or more digits, and twice a colon with two digits below sixty,
blanks around the whole being ignored (`Clock.Writes`). Digits of any script count. Main statement:
`outcome_of_parse`, that reading accepts exactly the timecodes, as the seconds they stand for, and
refuses every other text; a timecode with too many digits of hours is neither.
-/

namespace Montage.Timecode

open Text

variable {clock : Clock} {text : String}

/-- A clock that a text is, but for blanks around it, in the form of a timecode. -/
structure Clock.Writes (clock : Clock) (text : String) : Prop where
  written : stripWhere isBlank text.toList = clock.text
  digits : clock.OfDigits
  hours : 2 ≤ clock.hours.length
  minutes : clock.minutes.length = 2
  seconds : clock.seconds.length = 2
  minutesBelow : digitsValue clock.minutes < 60
  secondsBelow : digitsValue clock.seconds < 60

theorem isTimecode_iff :
    clock.isTimecode = true ↔
      2 ≤ clock.hours.length ∧ clock.minutes.length = 2 ∧ clock.seconds.length = 2 := by
  simp [Clock.isTimecode, and_assoc]

theorem Clock.Writes.clock? (writes : clock.Writes text) :
    clock? (stripWhere isBlank text.toList) = some (clock, []) :=
  clock?_eq_some_nil_iff.mpr ⟨writes.digits, writes.written⟩

/-- A text is a timecode of one clock only. -/
theorem Clock.Writes.unique {other : Clock} (writes : clock.Writes text)
    (writesOther : other.Writes text) : clock = other := by
  have same := writes.clock?.symm.trans writesOther.clock?
  exact congrArg Prod.fst (Option.some.inj same)

/-- What is read of a timecode. -/
theorem parse_of_writes (writes : clock.Writes text) :
    parse text =
      if maxDigits < clock.hours.length then .error (.defect .badValue) else .ok clock.total := by
  have inRange : ¬ (60 ≤ digitsValue clock.minutes ∨ 60 ≤ digitsValue clock.seconds) :=
    not_or.mpr ⟨Nat.not_le.mpr writes.minutesBelow, Nat.not_le.mpr writes.secondsBelow⟩
  have form : clock.isTimecode = true :=
    isTimecode_iff.mpr ⟨writes.hours, writes.minutes, writes.seconds⟩
  rw [parse, writes.clock?]
  dsimp only
  rw [form, Bool.not_true, if_neg Bool.false_ne_true, if_neg inRange]

/-- A text that is no timecode is refused. -/
theorem parse_of_not_writes (none : ¬ ∃ clock : Clock, clock.Writes text) :
    ∃ fault, parse text = .error (.edit (.time fault)) := by
  unfold parse
  split
  · next clock found =>
    obtain ⟨digits, written⟩ := clock?_eq_some_nil_iff.mp found
    split
    · exact ⟨_, rfl⟩
    · next form =>
      obtain ⟨hours, minutes, seconds⟩ := isTimecode_iff.mp (by simpa using form)
      split
      · exact ⟨_, rfl⟩
      · next inRange =>
        obtain ⟨minutesBelow, secondsBelow⟩ := not_or.mp inRange
        exact absurd ⟨clock, written, digits, hours, minutes, seconds,
          Nat.lt_of_not_le minutesBelow, Nat.lt_of_not_le secondsBelow⟩ none
  · exact ⟨_, rfl⟩

/-- The seconds of a clock, with its sign for the whole. -/
theorem total_eq (clock : Clock) :
    clock.total = (if clock.negative then -1 else 1) * (3600 * (digitsValue clock.hours : Int) +
      60 * digitsValue clock.minutes + digitsValue clock.seconds) := by
  unfold Clock.total Clock.hourSeconds
  cases clock.negative with
  | true =>
    simp only [if_true]
    omega
  | false =>
    simp only [Bool.false_eq_true, if_false]
    omega

/-- Reading gives seconds exactly for the timecodes: those that the digits stand for, with the sign
for the whole. Every other text is refused as no time. Only a timecode with more digits of hours
than can be read as a number gives neither. -/
theorem outcome_of_parse (text : String) :
    (∀ seconds, parse text = .ok seconds ↔
      ∃ clock : Clock, clock.Writes text ∧ clock.hours.length ≤ maxDigits ∧
        seconds = (if clock.negative then -1 else 1) * (3600 * (digitsValue clock.hours : Int) +
          60 * digitsValue clock.minutes + digitsValue clock.seconds)) ∧
      ((∃ fault, parse text = .error (.edit (.time fault))) ↔
        ¬ ∃ clock : Clock, clock.Writes text) ∧
      (parse text = .error (.defect .badValue) ↔
        ∃ clock : Clock, clock.Writes text ∧ maxDigits < clock.hours.length) := by
  by_cases timecode : ∃ clock : Clock, clock.Writes text
  · obtain ⟨clock, writes⟩ := timecode
    have read := parse_of_writes writes
    have only : ∀ {kind : Clock → Prop}, (∃ other : Clock, other.Writes text ∧ kind other) ↔
        kind clock :=
      ⟨fun ⟨other, writesOther, holds⟩ => writes.unique writesOther ▸ holds,
        fun holds => ⟨clock, writes, holds⟩⟩
    by_cases long : maxDigits < clock.hours.length
    · rw [if_pos long] at read
      refine ⟨fun seconds => ?_, ?_, ?_⟩
      · rw [read, only]
        exact iff_of_false nofun fun short => Nat.not_le.mpr long short.1
      · rw [read]
        exact iff_of_false nofun (not_not_intro ⟨clock, writes⟩)
      · rw [read, only]
        exact iff_of_true rfl long
    · rw [if_neg long] at read
      refine ⟨fun seconds => ?_, ?_, ?_⟩
      · rw [read, only, ← total_eq, Except.ok.injEq, eq_comm]
        exact (and_iff_right (Nat.le_of_not_lt long)).symm
      · rw [read]
        exact iff_of_false nofun (not_not_intro ⟨clock, writes⟩)
      · rw [read, only]
        exact iff_of_false nofun long
  · obtain ⟨fault, refused⟩ := parse_of_not_writes timecode
    refine ⟨fun seconds => ?_, ?_, ?_⟩
    · rw [refused]
      exact iff_of_false nofun fun ⟨clock, writes, _⟩ => timecode ⟨clock, writes⟩
    · exact iff_of_true ⟨fault, refused⟩ timecode
    · rw [refused]
      exact iff_of_false nofun fun ⟨clock, writes, _⟩ => timecode ⟨clock, writes⟩

example : parse " -00:01:30\n" = .ok (-90) := by decide +kernel
example : parse "١٠:٠٠:٠١" = .ok 36001 := by decide +kernel
example : parse "1:00:00" = .error (.edit (.time (.malformed "1:00:00"))) := by decide +kernel

end Montage.Timecode
