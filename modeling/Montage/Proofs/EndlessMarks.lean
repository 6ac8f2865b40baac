import Montage.Proofs.ClockRows
import Montage.Proofs.RealBounds
import Montage.Proofs.Reporting

/-!
# Marks with too many hours

What the encoder writes of its progress may be unreadable: a field that cannot be read is left out
of the report, and a mark that is no time is passed over. There is one text that does end the run.
It has the form of a mark, but more digits of hours than are read as a number, or more seconds than
a binary64 number can be (`Timecode.excess?`). Main statements:
* `parseMark_of_excess` and `parseMark_of_no_excess`: what reading a mark gives;
* `ends_readLines`: the first piece whose last mark is of this kind ends the reading, and nothing
  else that is written does;
* `outcome_of_run`: so it is with the whole run.
-/

namespace Montage

/-! ## Marks -/

namespace Timecode

/-- The clock and the fraction of a text that has the form of a progress mark. -/
def markForm? (text : String) : Option (Clock × List Char) :=
  match clock? (Text.stripWhere Text.isBlank text.toList) with
  | none => none
  | some (clock, rest) =>
    match fraction? rest with
    | none => none
    | some fraction => if clock.isMark then some (clock, fraction) else none

/-- What keeps the time of a clock from being a number: more digits of hours than are read, or
more seconds than are in the range of binary64. -/
def Clock.excess? (clock : Clock) : Option Defect :=
  if Text.maxDigits < clock.hours.length then some .badValue
  else if Number.realLimit ≤ clock.hourSeconds then some .overflow
  else none

/-- What keeps a text of the form of a mark from standing for a time. -/
def excess? (mark : String) : Option Defect :=
  (markForm? mark).bind fun form => form.1.excess?

theorem Clock.markSeconds_of_excess {clock : Clock} {cause : Defect}
    (excess : clock.excess? = some cause) (fraction : List Char) :
    clock.markSeconds fraction = .error cause := by
  unfold excess? at excess
  unfold markSeconds
  split at excess
  · next long =>
    cases excess
    exact if_pos long
  · next short =>
    rw [if_neg short]
    split at excess
    · next beyond =>
      cases excess
      rw [Number.wholeToReal_of_limit_le beyond]
      rfl
    · cases excess

theorem Clock.markSeconds_of_no_excess {clock : Clock} (none : clock.excess? = none)
    (fraction : List Char) : ∃ time, clock.markSeconds fraction = .ok time := by
  unfold excess? at none
  unfold markSeconds
  split at none
  · cases none
  · next short =>
    rw [if_neg short]
    split at none
    · cases none
    · next below =>
      obtain ⟨whole, converted⟩ := Number.exists_wholeToReal_iff_lt.mpr (Nat.lt_of_not_le below)
      rw [converted]
      exact ⟨_, rfl⟩

/-- Reading a mark goes by its form. -/
theorem parseMark_eq (mark : String) :
    parseMark (.text mark) =
      match markForm? mark with
      | none => reject (.time (.badMark (.text mark)))
      | some (clock, fraction) => liftM (clock.markSeconds fraction) := by
  unfold markForm? parseMark
  dsimp only
  cases clock? (Text.stripWhere Text.isBlank mark.toList) with
  | none => rfl
  | some found =>
    obtain ⟨clock, rest⟩ := found
    dsimp only
    cases fraction? rest with
    | none => rfl
    | some fraction =>
      dsimp only
      split
      · rfl
      · rfl

theorem parseMark_of_excess {mark : String} {cause : Defect} (excess : excess? mark = some cause) :
    parseMark (.text mark) = .error (.defect cause) := by
  obtain ⟨⟨clock, fraction⟩, formed, excess⟩ := Option.bind_eq_some_iff.mp excess
  rw [parseMark_eq, formed]
  exact liftM_defect_eq_error_iff.mpr ⟨cause, clock.markSeconds_of_excess excess fraction, rfl⟩

/-- A clock that is written as a mark keeps its excess. -/
theorem excess?_text {clock : Clock} (digits : clock.OfDigits) (mark : clock.isMark = true) :
    excess? (String.ofList clock.text) = clock.excess? := by
  have found : clock? clock.text = some (clock, []) := by
    rw [← List.append_nil clock.text]
    exact clock?_text_append digits (by simp)
  rw [excess?, markForm?, String.toList_ofList, stripWhere_text_of_isMark digits mark, found]
  simp only [fraction?, mark, if_true, Option.bind_some]

/-- A mark without such an excess is refused as no time, or stands for one. -/
theorem parseMark_of_no_excess {mark : String} (none : excess? mark = none) :
    (∃ fault, parseMark (.text mark) = .error (.edit (.time fault))) ∨
      ∃ time, parseMark (.text mark) = .ok time := by
  rw [parseMark_eq]
  unfold excess? at none
  cases formed : markForm? mark with
  | none => exact .inl ⟨_, rfl⟩
  | some form =>
    rw [formed] at none
    obtain ⟨time, given⟩ := form.1.markSeconds_of_no_excess none form.2
    exact .inr ⟨time, liftM_defect_eq_ok_iff.mpr given⟩

end Timecode

/-- A total that is not given, or is a positive number in the range of binary64. -/
inductive Timeline.Known : Value → Prop
  | absent : Known .null
  | whole {n : Nat} : 0 < n → n < Number.realLimit → Known (.int n)
  | real {units : Nat} {exact : Representable units} : 0 < units →
      Known (.real (.finite false units exact))

/-- Progress can be measured against a known total. -/
theorem Timeline.Known.measured {total : Value} (known : Known total) :
    total.isPresent = false ∨ total.le (.int 0) = .ok false ∧
      ∃ size real, total.number = .ok size ∧ size.toReal = .ok real := by
  cases known with
  | absent => exact .inl rfl
  | @whole n positive below =>
    obtain ⟨real, converted⟩ := Number.exists_wholeToReal_iff_lt.mpr below
    refine .inr ⟨?_, .whole n, real, rfl, converted⟩
    rw [Value.le_int, decide_eq_false (Int.not_le.mpr (Int.natCast_pos.mpr positive))]
  | @real units exact positive =>
    exact .inr ⟨Value.real_le_zero_eq_false_iff.mpr (.inr (.inr ⟨units, exact, rfl, positive⟩)),
      _, _, rfl, rfl⟩

/-! ## Pieces -/

/-- A line is parted at its first equals sign. -/
theorem ProgressBlock.field?_ofList {key : List Char} (plain : '=' ∉ key) (value : List Char) :
    field? (String.ofList (key ++ '=' :: value)) =
      some (String.ofList key, String.ofList value) := by
  have before : ∀ c ∈ key, (c != '=') = true := by
    intro c inside
    exact bne_iff_ne.mpr fun same => plain (same ▸ inside)
  unfold field?
  rw [String.toList_ofList, List.takeWhile_append_of_pos before,
    List.dropWhile_append_of_pos before]
  simp

namespace ProgressPiece

/-- What keeps the last mark of a piece from standing for a time. -/
def excess? (piece : ProgressPiece) : Option Defect :=
  (piece.last? "out_time").bind Timecode.excess?

theorem ofBlock_of_excess {piece : ProgressPiece} {cause : Defect} (total : Value)
    (excess : piece.excess? = some cause) :
    ProgressNews.ofBlock piece.reverse total = .error (.defect cause) := by
  obtain ⟨mark, found, excess⟩ := Option.bind_eq_some_iff.mp excess
  have present : mark ≠ "" := by
    rintro rfl
    cases excess
  unfold ProgressNews.ofBlock
  rw [value?_reverse, found]
  dsimp only
  rw [if_neg present, Timecode.parseMark_of_excess excess]

theorem readable_of_no_excess {total : Value} {piece : ProgressPiece}
    (known : Timeline.Known total) (none : piece.excess? = none) : piece.Readable total := by
  refine readable_of_known_total known.measured fun mark found _ => ?_
  unfold excess? at none
  rw [found] at none
  exact Timecode.parseMark_of_no_excess none

end ProgressPiece

/-! ## Reading -/

namespace EncoderRun

open Encoding ProgressPiece

variable {process : EncoderProcess} {listener : Option ProgressListener}
  {total start limit : Value} {trace : EncoderTrace}

/-- A listener, if there is one, that takes every report. -/
def Accepting (listener : Option ProgressListener) : Prop :=
  ∀ listen ∈ listener, ∀ news, listen news = .ok ()

theorem run_announce_of_excess {piece : ProgressPiece} {cause : Defect}
    (excess : piece.excess? = some cause) :
    (announce listener total piece.reverse).run trace = .error (.defect cause) trace :=
  run_bind_eq_error_iff.mpr
    (.inl (run_lift_eq_error_iff.mpr ⟨ofBlock_of_excess total excess, rfl⟩))

/-- A piece is taken if its mark has no excess. -/
theorem taken_of_no_excess {piece : ProgressPiece} (accepts : Accepting listener)
    (known : Timeline.Known total) (none : piece.excess? = none) : Taken listener total piece :=
  ⟨readable_of_no_excess known none, fun listen isListener news _ => accepts listen isListener news⟩

/-- Whether an end comes without a failure, and where it does, what it leaves. -/
def Ends (result : EStateM.Result Failure EncoderTrace Unit) (cause : Option Defect)
    (kept : EncoderTrace → Prop) : Prop :=
  match cause with
  | none => ∃ after, result = .ok () after ∧ kept after
  | some cause => ∃ after, result = .error (.defect cause) after

/-- Taking in one line more ends the piece that it finishes in the defect of its mark, if there is
one; otherwise what is left over goes on as the block that is being gathered. -/
theorem ends_absorb {left : ProgressPiece} (line : String) (accepts : Accepting listener)
    (known : Timeline.Known total) (plain : ∀ field ∈ left, isEnd field = false)
    (block : trace.block = left.reverse) :
    Ends ((absorb listener total (Text.strip line)).run trace)
      ((cutAfter isEnd (left ++ fields [line])).1.findSome? excess?) fun after =>
        after.lines = trace.lines ∧
          after.block = (cutAfter isEnd (left ++ fields [line])).2.reverse := by
  rw [fields_singleton]
  cases found : ProgressBlock.field? (Text.strip line) with
  | none =>
    rw [run_absorb_of_no_field found, Option.toList_none, List.append_nil, cutAfter_of_plain plain]
    exact ⟨trace, rfl, rfl, block⟩
  | some field =>
    have gathered : field :: trace.block = (left ++ [field]).reverse := by
      rw [List.reverse_append, ← block]
      rfl
    rw [run_absorb_of_field found, Option.toList_some, cutAfter_concat, cutAfter_of_plain plain,
      gathered]
    cases ended : isEnd field with
    | false => exact ⟨_, rfl, rfl, rfl⟩
    | true =>
      cases excess : (left ++ [field]).excess? with
      | none =>
        obtain ⟨log, told⟩ := run_announce_of_taken { trace with block := [] }
          (taken_of_no_excess accepts known excess)
        simp only [if_true, List.nil_append, List.findSome?_cons, excess, List.findSome?_nil]
        exact ⟨_, told, rfl, rfl⟩
      | some cause =>
        simp only [if_true, List.nil_append, List.findSome?_cons, excess]
        exact ⟨_, run_announce_of_excess excess⟩

theorem ends_readLine {left : ProgressPiece} (process : EncoderProcess) (start : Value)
    (line : String) (unlimited : limit.isPresent = false) (accepts : Accepting listener)
    (known : Timeline.Known total) (plain : ∀ field ∈ left, isEnd field = false)
    (block : trace.block = left.reverse) :
    Ends ((readLine process listener total start limit line).run trace)
      ((cutAfter isEnd (left ++ fields [line])).1.findSome? excess?) fun after =>
        after.lines = trace.lines ++ written [line] ∧
          after.block = (cutAfter isEnd (left ++ fields [line])).2.reverse := by
  by_cases blank : Text.strip line = ""
  · have nothing : fields [line] = [] := by rw [fields, written_of_blank blank]; rfl
    rw [run_readLine_of_blank blank, nothing, List.append_nil, cutAfter_of_plain plain,
      written_of_blank blank, List.append_nil]
    exact ⟨trace, rfl, rfl, block⟩
  · rw [run_readLine_of_present blank, run_bind_of_ok (run_checkTime_of_unlimited unlimited),
      written_of_present blank]
    exact ends_absorb line accepts known plain block

/-- Reading lines that follow an unfinished piece ends in the defect of the first finished piece
that has one, and goes through otherwise. -/
theorem ends_readLines {left : ProgressPiece} (process : EncoderProcess) (start : Value)
    (lines : List String) (unlimited : limit.isPresent = false) (accepts : Accepting listener)
    (known : Timeline.Known total) (plain : ∀ field ∈ left, isEnd field = false)
    (block : trace.block = left.reverse) :
    Ends ((readLines process listener total start limit lines).run trace)
      ((cutAfter isEnd (left ++ fields lines)).1.findSome? excess?) fun after =>
        after.lines = trace.lines ++ written lines := by
  induction lines generalizing left trace with
  | nil =>
    have nothing : fields [] = [] := rfl
    rw [nothing, List.append_nil, cutAfter_of_plain plain]
    exact ⟨trace, rfl, (List.append_nil _).symm⟩
  | cons line lines ih =>
    have split : fields (line :: lines) = fields [line] ++ fields lines :=
      fields_append [line] lines
    have one := ends_readLine process start line unlimited accepts known plain block
    rw [split, ← List.append_assoc, cutAfter_append, List.findSome?_append]
    cases excess : (cutAfter isEnd (left ++ fields [line])).1.findSome? excess? with
    | some cause =>
      rw [excess] at one
      obtain ⟨after, failed⟩ := one
      exact ⟨after, run_bind_eq_error_iff.mpr (.inl failed)⟩
    | none =>
      rw [excess] at one
      obtain ⟨middle, ran, kept, gathered⟩ := one
      have more := ih (plain_of_mem_rest _) gathered
      rw [readLines, run_bind_of_ok ran, Option.none_or]
      rw [kept, List.append_assoc, ← written_append] at more
      exact more

/-! ## The whole run -/

/-- A run that has been started reads all that the process writes, or ends in the defect of the
first piece that has one. -/
theorem ends_begun (process : EncoderProcess) (command spawned : List String)
    (unlimited : limit.isPresent = false) (accepts : Accepting listener)
    (known : Timeline.Known total) :
    Ends ((readLines process listener total (process.clock 0) limit process.output).run
      (begunTrace command spawned)) ((pieces process.output).1.findSome? excess?)
      fun after => after.lines = written process.output := by
  show Ends _ ((cutAfter isEnd ([] ++ fields process.output)).1.findSome? excess?) _
  exact ends_readLines process (process.clock 0) process.output unlimited accepts known
    (List.forall_mem_nil _) rfl

theorem run_of_excess {command : List String} (present : command ≠ [])
    (unlimited : limit.isPresent = false) (accepts : Accepting listener)
    (known : Timeline.Known total) {cause : Defect}
    (excess : (pieces process.output).1.findSome? excess? = some cause) :
    ∃ after, (run process command listener total limit).run {} =
      .error (.defect cause) after := by
  obtain ⟨spawned, spawning⟩ := exists_withProgress? present
  have ended := ends_begun process command spawned unlimited accepts known
  rw [excess] at ended
  obtain ⟨middle, failed⟩ := ended
  have followed : (follow process listener total (process.clock 0) limit).run
      (begunTrace command spawned) = .error (.defect cause) middle :=
    run_bind_eq_error_iff.mpr (.inl failed)
  rw [run_of_started spawning]
  exact ⟨_, run_bind_eq_error_iff.mpr (.inl (run_closing_of_error followed))⟩

theorem run_of_no_excess {command : List String} (present : command ≠ [])
    (unlimited : limit.isPresent = false) (succeeds : process.code = 0)
    (accepts : Accepting listener) (known : Timeline.Known total)
    (none : (pieces process.output).1.findSome? excess? = none) :
    ∃ after, (run process command listener total limit).run {} =
      .ok ⟨command, 0, "\n".intercalate (written process.output), String.join process.errors⟩
        after := by
  obtain ⟨spawned, spawning⟩ := exists_withProgress? present
  have ended := ends_begun process command spawned unlimited accepts known
  rw [none] at ended
  obtain ⟨middle, ran, kept⟩ := ended
  have followed : (follow process listener total (process.clock 0) limit).run
      (begunTrace command spawned) =
        .ok () { middle with requests := middle.requests ++ [.wait] } :=
    run_bind_of_ok ran
  obtain ⟨after, concluded, -⟩ := run_conclude_of_success command
    { middle with
      requests := middle.requests ++ [.wait], outputClosed := true, errorsClosed := true }
    succeeds
  refine ⟨after, ?_⟩
  rw [run_of_started spawning, run_bind_of_ok (run_closing_of_ok followed), concluded, kept]

/-- A run without a time limit, of a process that ends well, gives a result whatever the process
writes, unless the last mark of a finished piece has more hours than can be read or converted; the
first such mark tells the defect that the run ends in. -/
theorem outcome_of_run (process : EncoderProcess) {command : List String} (present : command ≠ [])
    (unlimited : limit.isPresent = false) (succeeds : process.code = 0)
    (accepts : Accepting listener) (known : Timeline.Known total) :
    (traced (run process command listener total limit)).1 =
      match (pieces process.output).1.findSome? excess? with
      | none =>
        .ok ⟨command, 0, "\n".intercalate (written process.output), String.join process.errors⟩
      | some cause => .error (.defect cause) := by
  unfold traced
  cases excess : (pieces process.output).1.findSome? excess? with
  | none =>
    obtain ⟨after, ran⟩ := run_of_no_excess present unlimited succeeds accepts known excess
    rw [ran]
  | some cause =>
    obtain ⟨after, failed⟩ := run_of_excess present unlimited accepts known excess
    rw [failed]

/-- A process that writes nothing that can be read: no number after any key, a mark without a
colon, and one without a digit. -/
def garblingProcess : EncoderProcess where
  output := ["frame=1e9", "fps=", "speed=fast", "bitrate", "out_time=12", "progress=continue",
    "out_time=-::", "progress=end"]
  clock _ := .int 0

theorem outcome_garblingProcess :
    (traced (run garblingProcess ["ffmpeg", "out.mp4"] (some fun _ => .ok ()) (.int 10) .null)).1 =
        .ok ⟨["ffmpeg", "out.mp4"], 0, "\n".intercalate garblingProcess.output, ""⟩ := by
  have unlimited : Value.isPresent .null = false := rfl
  have accepts : Accepting (some fun _ => .ok ()) := by
    rintro listen ⟨⟩ news
    rfl
  have known : Timeline.Known (.int 10) := .whole (n := 10) (by decide) (by decide +kernel)
  have none : (pieces garblingProcess.output).1.findSome? excess? = none := by decide +kernel
  have kept : written garblingProcess.output = garblingProcess.output := by decide +kernel
  have present : ["ffmpeg", "out.mp4"] ≠ [] := by decide
  have ended := outcome_of_run garblingProcess present unlimited rfl accepts known
  rw [none, kept] at ended
  exact ended

/-- A clock with 310 digits of hours. -/
def endlessClock : Timecode.Clock where
  negative := false
  hours := List.replicate 310 '9'
  minutes := ['0', '0']
  seconds := ['0', '0']

/-- A process that writes this clock as its mark, and ends well. -/
def endlessProcess : EncoderProcess where
  output := [String.ofList ("out_time".toList ++ '=' :: endlessClock.text), "progress=end"]
  clock _ := .int 0

theorem pieces_endlessProcess :
    (pieces endlessProcess.output).1 =
      [[("out_time", String.ofList endlessClock.text), ("progress", "end")]] := by
  have stripped : Text.strip (String.ofList ("out_time".toList ++ '=' :: endlessClock.text)) =
      String.ofList ("out_time".toList ++ '=' :: endlessClock.text) := by
    refine Text.strip_of_edges ?_ ?_
    · rintro c ⟨⟩
      decide
    · rintro c ⟨⟩
      decide
  have mark : ProgressBlock.field? (String.ofList ("out_time".toList ++ '=' :: endlessClock.text)) =
      some ("out_time", String.ofList endlessClock.text) :=
    ProgressBlock.field?_ofList (by decide) _
  have first : fields endlessProcess.output =
      [("out_time", String.ofList endlessClock.text), ("progress", "end")] := by
    have last : fields ["progress=end"] = [("progress", "end")] := by decide +kernel
    rw [endlessProcess, ← List.singleton_append, fields_append, fields_singleton, stripped, mark,
      last]
    rfl
  rw [pieces, first]
  rfl

theorem findSome?_excess?_mark (mark : String) :
    [[("out_time", mark), ("progress", "end")]].findSome? excess? = Timecode.excess? mark := by
  have found : last? [("out_time", mark), ("progress", "end")] "out_time" = some mark := rfl
  have only : excess? [("out_time", mark), ("progress", "end")] = Timecode.excess? mark := by
    rw [excess?, found, Option.bind_some]
  rw [List.findSome?_cons, only, List.findSome?_nil]
  cases Timecode.excess? mark <;> rfl

/-- Hours out of the range of binary64 are not passed over: the run gives no result. -/
theorem overflow_endlessProcess :
    (traced (run endlessProcess ["ffmpeg", "out.mp4"] (some fun _ => .ok ()) .null .null)).1 =
      .error (.defect .overflow) := by
  have accepts : Accepting (some fun _ => .ok ()) := by
    rintro listen ⟨⟩ news
    rfl
  have digits : endlessClock.OfDigits := by
    have nine : Text.isDecimalDigit '9' = true := by decide
    have nought : Text.isDecimalDigit '0' = true := by decide
    have noughts : ∀ c ∈ ['0', '0'], Text.isDecimalDigit c = true :=
      List.forall_mem_cons.mpr ⟨nought, List.forall_mem_singleton.mpr nought⟩
    exact ⟨fun c digit => List.eq_of_mem_replicate digit ▸ nine, noughts, noughts⟩
  have beyond : endlessClock.excess? = some .overflow := by decide +kernel
  have excess : (pieces endlessProcess.output).1.findSome? excess? = some .overflow := by
    rw [pieces_endlessProcess, findSome?_excess?_mark,
      Timecode.excess?_text digits (by decide +kernel), beyond]
  obtain ⟨after, failed⟩ : ∃ after, (run endlessProcess ["ffmpeg", "out.mp4"]
      (some fun _ => .ok ()) .null .null).run {} = .error (.defect .overflow) after :=
    run_of_excess (by decide) rfl accepts .absent excess
  rw [traced, failed]

end EncoderRun

end Montage
