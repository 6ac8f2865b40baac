import Montage.Proofs.ClockRows
import Montage.Proofs.Drafting
import Montage.Session

/-!
# Answers to questions

An answer chooses an option by its name, or by its position where the options are numbered and none
has that name; a position is a numeral of decimal digits of any script. Any other answer is refused,
unless it looks like a numeral without being read as one (`Misleading`), which is found as a defect.
Main statements: `settles_of_select`, and `settled_of_ask` for a question that is asked.
-/

namespace Montage

namespace Text

/-! ## Rows of digits -/

/-- A row of decimal digits of any script, and the number that it denotes. -/
structure IsNumeral (text : List Char) (n : Nat) : Prop where
  present : text ≠ []
  digits : ∀ c ∈ text, isDecimalDigit c = true
  value : digitsValue text = n

/-- A row of characters that all look like digits, but which is not read as a number: one of them is
no decimal digit, or there are too many. -/
structure Misleading (text : List Char) : Prop where
  present : text ≠ []
  like : ∀ c ∈ text, isDigitLike c = true
  unread : (∃ c ∈ text, isDecimalDigit c = false) ∨ maxDigits < text.length

variable {text digits : List Char} {n : Nat} {c : Char}

theorem isDigitLike_of_isDecimalDigit (digit : isDecimalDigit c = true) : isDigitLike c = true := by
  rw [isDigitLike, digit, Bool.true_or]

theorem isBlank_of_isDigitLike (like : isDigitLike c = true) : isBlank c = false := by
  have apart : ∀ range ∈ digitLookalikes, ∀ place < range.2 + 1 - range.1,
      isBlank (Char.ofNat (range.1 + place)) = false := by
    decide +kernel
  rcases Bool.or_eq_true_iff.mp like with digit | lookalike
  · exact isBlank_of_isDecimalDigit digit
  · obtain ⟨range, listed, within⟩ := List.any_eq_true.mp lookalike
    simp only [Bool.and_eq_true, decide_eq_true_eq] at within
    have code : c.toNat = range.1 + (c.toNat - range.1) := by omega
    rw [← Char.ofNat_toNat c, code]
    exact apart range listed _ (by omega)

theorem IsNumeral.unique {m : Nat} (numeral : IsNumeral text m) (same : IsNumeral text n) :
    m = n :=
  numeral.value.symm.trans same.value

/-- A numeral is misleading exactly if it is too long. -/
theorem IsNumeral.misleading_iff (numeral : IsNumeral text n) :
    Misleading text ↔ maxDigits < text.length := by
  constructor
  · intro misleading
    refine misleading.unread.resolve_left ?_
    rintro ⟨c, present, other⟩
    rw [numeral.digits c present] at other
    cases other
  · intro long
    exact ⟨numeral.present,
      fun c present => isDigitLike_of_isDecimalDigit (numeral.digits c present), .inr long⟩

/-- What looks like digits has no sign in front. -/
theorem takeSign_of_isDigitLike (like : ∀ c ∈ text, isDigitLike c = true) :
    takeSign text = (false, text) := by
  unfold takeSign
  split
  · exact absurd (like '-' List.mem_cons_self) (by decide)
  · exact absurd (like '+' List.mem_cons_self) (by decide)
  · rfl

/-- A group holds nothing but digits and underscores. -/
theorem isDecimalDigit_or_eq_of_go {afterDigit : Bool}
    (read : groupDigits?.go afterDigit text = some digits) :
    ∀ c ∈ text, isDecimalDigit c = true ∨ c = '_' := by
  induction text generalizing afterDigit digits with
  | nil => nofun
  | cons first rest ih =>
    rw [groupDigits?.go] at read
    rw [List.forall_mem_cons]
    split at read
    · next digit =>
      obtain ⟨_, readRest, -⟩ := Option.map_eq_some_iff.mp read
      exact ⟨.inl digit, ih readRest⟩
    · split at read
      · next mark => exact ⟨.inr mark.1, ih read⟩
      · cases read

/-- What looks like digits is read by its digits alone. -/
theorem integer?_of_isDigitLike (like : ∀ c ∈ text, isDigitLike c = true) :
    integer? text = match groupDigits? text with
      | none => none
      | some digits =>
        if maxDigits < digits.length then none else some (digitsValue digits : Int) := by
  have edges : ∀ c ∈ text, isNumeralBlank c = false := by
    intro c present
    rw [isNumeralBlank, isBlank_of_isDigitLike (like c present), Bool.false_and]
  have stripped : stripWhere isNumeralBlank text = text :=
    stripWhere_of_edges (fun c first => edges c (List.mem_of_mem_head? first))
      fun c last => edges c (List.mem_of_getLast? last)
  rw [integer?, stripped, takeSign_of_isDigitLike like]
  rfl

theorem integer?_of_isNumeral (numeral : IsNumeral text n) :
    integer? text = if maxDigits < text.length then none else some (n : Int) := by
  obtain ⟨present, digits, rfl⟩ := numeral
  have like : ∀ c ∈ text, isDigitLike c = true := fun c inText =>
    isDigitLike_of_isDecimalDigit (digits c inText)
  rw [integer?_of_isDigitLike like, groupDigits?_of_all_digits present digits]

theorem integer?_of_misleading (misleading : Misleading text) : integer? text = none := by
  by_cases digits : ∀ c ∈ text, isDecimalDigit c = true
  · have numeral : IsNumeral text (digitsValue text) := ⟨misleading.present, digits, rfl⟩
    rw [integer?_of_isNumeral numeral, if_pos (numeral.misleading_iff.mp misleading)]
  · have unread : groupDigits? text = none := by
      refine Option.eq_none_iff_forall_ne_some.mpr fun read same => digits fun c present => ?_
      refine (isDecimalDigit_or_eq_of_go same c present).resolve_right ?_
      rintro rfl
      exact absurd (misleading.like '_' present) (by decide)
    rw [integer?_of_isDigitLike misleading.like, unread]

end Text

namespace Question

open Text

variable {question : Question} {answer : List Char} {n : Nat}

/-! ## Positions -/

/-- An answer is a numeral that can be read, or misleading, or neither. -/
theorem number?_cases (answer : List Char) :
    (∃ n : Nat, IsNumeral answer n ∧ ¬ Misleading answer ∧ number? answer = .ok (some (n : Int))) ∨
      Misleading answer ∧ number? answer = .error .badValue ∨
      (∀ n, ¬ IsNumeral answer n) ∧ ¬ Misleading answer ∧ number? answer = .ok none := by
  unfold number?
  split
  · next guard =>
    simp only [Bool.and_eq_true, Bool.not_eq_true', List.isEmpty_eq_false_iff,
      List.all_eq_true] at guard
    obtain ⟨present, like⟩ := guard
    by_cases misleading : Misleading answer
    · rw [integer?_of_misleading misleading]
      exact .inr (.inl ⟨misleading, rfl⟩)
    · have digits : ∀ c ∈ answer, isDecimalDigit c = true := by
        intro c inAnswer
        by_contra other
        exact misleading ⟨present, like, .inl ⟨c, inAnswer, Bool.eq_false_iff.mpr other⟩⟩
      have numeral : IsNumeral answer (digitsValue answer) := ⟨present, digits, rfl⟩
      rw [integer?_of_isNumeral numeral, if_neg (numeral.misleading_iff.not.mp misleading)]
      exact .inl ⟨_, numeral, misleading, rfl⟩
  · next guard =>
    have other (present : answer ≠ []) (like : ∀ c ∈ answer, isDigitLike c = true) : False := by
      refine guard ?_
      simpa only [Bool.and_eq_true, Bool.not_eq_true', List.isEmpty_eq_false_iff,
        List.all_eq_true] using And.intro present like
    refine .inr (.inr ⟨fun n numeral => ?_, fun misleading => ?_, rfl⟩)
    · exact other numeral.present fun c present =>
        isDigitLike_of_isDecimalDigit (numeral.digits c present)
    · exact other misleading.present misleading.like

/-- An answer that is the position of an option, where the options are numbered. -/
structure Places (question : Question) (answer : String) (n : Nat) : Prop where
  numbered : question.numbered = true
  numeral : IsNumeral answer.toList n
  first : 1 ≤ n
  last : n ≤ question.options.length

theorem optionAt?_eq_some_iff {chosen : String} :
    question.optionAt? n = some chosen ↔ 1 ≤ n ∧ question.options[n - 1]? = some chosen := by
  unfold optionAt?
  by_cases first : 1 ≤ n
  · rw [if_pos (by omega), Int.toNat_natCast, and_iff_right first]
  · rw [if_neg (by omega)]
    exact iff_of_false nofun fun both => first both.1

/-! ## Outcomes -/

/-- What becomes of a question that is given an answer. -/
structure Settles (question : Question) (answer : String) (outcome : Except Failure String) :
    Prop where
  /-- The outcome is an option, a refusal, or a defect. -/
  closed : (∃ chosen ∈ question.options, outcome = .ok chosen) ∨
    outcome = .error (.session (.choice (.noOptions question.prompt))) ∨
    outcome = .error (.session (.choice (.notAnOption answer))) ∨
    outcome = .error (.defect .badValue)
  /-- An option is chosen by its name, whatever position that is spelled like; and by its position,
  if no option has that name and it can be read. -/
  ok_iff : ∀ chosen, outcome = .ok chosen ↔
    answer ∈ question.options ∧ chosen = answer ∨
      answer ∉ question.options ∧ ∃ n, question.Places answer n ∧
        answer.toList.length ≤ maxDigits ∧ question.options[n - 1]? = some chosen
  none_iff : outcome = .error (.session (.choice (.noOptions question.prompt))) ↔
    question.options = []
  /-- The only defect is an answer that would be a position and looks like a numeral, but is not
  read as one. -/
  defect_iff : outcome = .error (.defect .badValue) ↔
    question.options ≠ [] ∧ answer ∉ question.options ∧ question.numbered = true ∧
      Misleading answer.toList

section

variable {answer : String}

theorem settles_of_no_options (none : question.options = []) :
    question.Settles answer (.error (.session (.choice (.noOptions question.prompt)))) where
  closed := .inr (.inl rfl)
  ok_iff chosen := by
    simp only [none, List.not_mem_nil, List.getElem?_nil]
    exact iff_of_false nofun (by simp)
  none_iff := iff_of_true rfl none
  defect_iff := iff_of_false nofun fun some_option => some_option.1 none

theorem settles_of_mem (listed : answer ∈ question.options) :
    question.Settles answer (.ok answer) where
  closed := .inl ⟨answer, listed, rfl⟩
  ok_iff chosen := by
    rw [and_iff_right listed, Except.ok.injEq, eq_comm]
    exact (or_iff_left fun other => other.1 listed).symm
  none_iff := iff_of_false nofun (List.ne_nil_of_mem listed)
  defect_iff := iff_of_false nofun fun other => other.2.1 listed

theorem settles_of_places {chosen : String} (unlisted : answer ∉ question.options)
    (places : question.Places answer n) (short : ¬ Misleading answer.toList)
    (found : question.options[n - 1]? = some chosen) : question.Settles answer (.ok chosen) where
  closed := .inl ⟨chosen, List.mem_of_getElem? found, rfl⟩
  ok_iff other := by
    rw [or_iff_right fun listed => unlisted listed.1, Except.ok.injEq]
    constructor
    · rintro rfl
      exact ⟨unlisted, n, places, Nat.le_of_not_lt (places.numeral.misleading_iff.not.mp short),
        found⟩
    · rintro ⟨-, m, samePlaces, -, foundOther⟩
      rw [samePlaces.numeral.unique places.numeral, found] at foundOther
      exact Option.some.inj foundOther
  none_iff := iff_of_false nofun (List.ne_nil_of_mem (List.mem_of_getElem? found))
  defect_iff := iff_of_false nofun fun other => short other.2.2.2

theorem settles_of_misleading (some_option : question.options ≠ [])
    (unlisted : answer ∉ question.options) (numbered : question.numbered = true)
    (misleading : Misleading answer.toList) :
    question.Settles answer (.error (.defect .badValue)) where
  closed := .inr (.inr (.inr rfl))
  ok_iff chosen := by
    refine iff_of_false nofun ?_
    rintro (listed | ⟨-, n, places, short, -⟩)
    · exact unlisted listed.1
    · exact Nat.not_lt.mpr short (places.numeral.misleading_iff.mp misleading)
  none_iff := iff_of_false nofun some_option
  defect_iff := iff_of_true rfl ⟨some_option, unlisted, numbered, misleading⟩

theorem settles_of_unplaced (some_option : question.options ≠ [])
    (unlisted : answer ∉ question.options) (unplaced : ∀ n, ¬ question.Places answer n)
    (plain : question.numbered = true → ¬ Misleading answer.toList) :
    question.Settles answer (.error (.session (.choice (.notAnOption answer)))) where
  closed := .inr (.inr (.inl rfl))
  ok_iff chosen := by
    refine iff_of_false nofun ?_
    rintro (listed | ⟨-, n, places, -⟩)
    · exact unlisted listed.1
    · exact unplaced n places
  none_iff := iff_of_false nofun some_option
  defect_iff := iff_of_false nofun fun ⟨_, _, numbered, misleading⟩ => plain numbered misleading

/-- A numeral that can be read chooses the option at its position, if there is one. -/
theorem settles_of_numeral (some_option : question.options ≠ [])
    (unlisted : answer ∉ question.options) (numbered : question.numbered = true)
    (numeral : IsNumeral answer.toList n) (short : ¬ Misleading answer.toList) :
    question.Settles answer ((question.optionAt? n).elim
      (.error (.session (.choice (.notAnOption answer)))) .ok) := by
  cases found : question.optionAt? n with
  | some chosen =>
    obtain ⟨first, option⟩ := optionAt?_eq_some_iff.mp found
    have below := (List.getElem?_eq_some_iff.mp option).1
    exact settles_of_places unlisted ⟨numbered, numeral, first, by omega⟩ short option
  | none =>
    refine settles_of_unplaced some_option unlisted (fun m places => ?_) fun _ => short
    obtain rfl := places.numeral.unique numeral
    have below : m - 1 < question.options.length := by
      have first := places.first
      have last := places.last
      omega
    have option := optionAt?_eq_some_iff.mpr ⟨places.first, List.getElem?_eq_getElem below⟩
    rw [found] at option
    cases option

theorem settles_of_select (some_option : question.options ≠ []) (line : String) :
    question.Settles (strip line) (question.select line) := by
  by_cases listed : strip line ∈ question.options
  · rw [select_of_mem listed]
    exact settles_of_mem listed
  unfold select
  generalize strip line = answer at listed ⊢
  dsimp only
  rw [if_neg (by simpa using listed)]
  split
  · next numbered =>
    rcases number?_cases answer.toList with
      ⟨n, numeral, short, read⟩ | ⟨misleading, read⟩ | ⟨none, plain, read⟩
    · rw [read]
      exact settles_of_numeral some_option listed numbered numeral short
    · rw [read]
      exact settles_of_misleading some_option listed numbered misleading
    · rw [read]
      exact settles_of_unplaced some_option listed (fun n places => none n places.numeral)
        fun _ => plain
  · next plain =>
    exact settles_of_unplaced some_option listed (fun n places => plain places.numbered)
      fun numbered => absurd numbered plain

end

end Question

namespace Session

/-- The trace of a session that has put a question and read an answer to it; without options the
question is not put. -/
def answered (question : Question) (rest : List Char) (trace : SessionTrace) : SessionTrace :=
  if question.options = [] then trace
  else { trace with output := trace.output ++ question.text, input := rest }

/-- A question that is given an answer is settled by it, and nothing else is done than that the
question is shown and the line is read. -/
theorem settled_of_ask (question : Question) {trace : SessionTrace} {line : String}
    {rest : List Char} (given : Question.line? trace.input = some (line, rest)) :
    Ensures
      (fun chosen after => question.Settles (Text.strip line) (.ok chosen) ∧
        after = answered question rest trace)
      (fun failure after => question.Settles (Text.strip line) (.error failure) ∧
        after = answered question rest trace)
      (EStateM.run (ask question) trace) := by
  unfold ask
  by_cases none : question.options = []
  · rw [if_pos (List.isEmpty_iff.mpr none)]
    exact .error ⟨Question.settles_of_no_options none, (if_pos none).symm⟩
  · rw [if_neg fun empty => none (List.isEmpty_iff.mp empty)]
    refine ensures_modify_bind (ensures_get_bind ?_)
    dsimp only
    rw [given]
    refine ensures_modify_bind (ensures_lift (fun chosen selected => ?_) fun failure selected => ?_)
    · rw [← selected]
      exact ⟨Question.settles_of_select none line, (if_neg none).symm⟩
    · rw [← selected]
      exact ⟨Question.settles_of_select none line, (if_neg none).symm⟩

/-- A choice of two projects, of which the first has the other's position as its name. -/
def sampleQuestion : Question :=
  ⟨"Projeto", ["2", "outro"], true⟩

/-- The sample question is settled by an answer that is a name and a position. -/
theorem settled_sampleQuestion :
    Question.line? [' ', '2', ' ', '\n'] = some (" 2 ", []) ∧
      Ensures
        (fun chosen after => sampleQuestion.Settles (Text.strip " 2 ") (.ok chosen) ∧
          after = answered sampleQuestion [] { input := [' ', '2', ' ', '\n'] })
        (fun failure after => sampleQuestion.Settles (Text.strip " 2 ") (.error failure) ∧
          after = answered sampleQuestion [] { input := [' ', '2', ' ', '\n'] })
        (EStateM.run (ask sampleQuestion) { input := [' ', '2', ' ', '\n'] }) := by
  have given : Question.line? [' ', '2', ' ', '\n'] = some (" 2 ", []) := by decide +kernel
  exact ⟨given, settled_of_ask sampleQuestion given⟩

example : sampleQuestion.select " 2 " = .ok "2" := by decide +kernel
example : sampleQuestion.select "٠٢" = .ok "outro" := by decide +kernel

/-- A superscript looks like a position, but the sample question is neither answered by it nor
refuses it. -/
theorem misled_sampleQuestion :
    Question.line? ['²', '\n'] = some ("²", []) ∧
      ∃ after, EStateM.run (ask sampleQuestion) { input := ['²', '\n'] } =
        .error (.defect .badValue) after := by
  exact ⟨by decide +kernel, _, rfl⟩

end Session

end Montage
