import Montage.Encoder.Run
import Montage.Proofs.ProgressPieces
import Montage.Proofs.TotalLength

/-!
# What a run reports

A run reads the output of the encoder line by line. After any lines its trace holds the lines that
count, the reports of the finished pieces, and what is left over as the block that is being
gathered (`EncoderTrace.Gathered`); reading one more line keeps this. Main statement:
`heard_of_run`, that the listener of a run without a time limit hears of each finished piece that
stands for a time, in order and once, and that the run gives back all lines that count.
-/

namespace Montage

/-! ## Steps -/

namespace Encoding

variable {α β : Type} {trace middle : EncoderTrace}

theorem run_bind_of_ok {step : Encoding α} {next : α → Encoding β} {value : α}
    (ran : step.run trace = .ok value middle) :
    (step >>= next).run trace = (next value).run middle := by
  rw [EStateM.run_bind, ran]

end Encoding

/-! ## Readable pieces -/

/-- A real number is divided by what the other number is converted to. -/
theorem Number.real_div_of_toReal {x real : Binary64} {size : Number}
    (converted : size.toReal = .ok real) : (Number.real x).div size = .ok (x.div real) := by
  cases size with
  | whole n =>
    exact except_bind_eq_ok_iff.mpr ⟨x, rfl, except_bind_eq_ok_iff.mpr ⟨real, converted, rfl⟩⟩
  | real y =>
    cases converted
    rfl

namespace ProgressPiece

/-- Progress is measured against a total that is not known, or is a number that was not refused. -/
theorem exists_percentOf_of_known_total {total : Value} (time : Binary64)
    (known : total.isPresent = false ∨ total.le (.int 0) = .ok false ∧
      ∃ size real, total.number = .ok size ∧ size.toReal = .ok real) :
    ∃ share, ProgressNews.percentOf time total = .ok share := by
  unfold ProgressNews.percentOf
  rcases known with absent | ⟨above, size, real, counted, converted⟩
  · exact ⟨none, if_neg (by simp [absent])⟩
  · rw [Timeline.percent_eq above rfl counted (Number.real_div_of_toReal converted)]
    split
    · exact ⟨_, rfl⟩
    · exact ⟨_, rfl⟩

/-- Where the total is not known, or is a number that progress can be measured against, a piece is
readable if its mark is refused as no time or stands for one. -/
theorem readable_of_known_total {total : Value} {piece : ProgressPiece}
    (known : total.isPresent = false ∨ total.le (.int 0) = .ok false ∧
      ∃ size real, total.number = .ok size ∧ size.toReal = .ok real)
    (parsed : ∀ mark, piece.last? "out_time" = some mark → mark ≠ "" →
      (∃ fault, Timecode.parseMark (.text mark) = .error (.edit (.time fault))) ∨
        ∃ time, Timecode.parseMark (.text mark) = .ok time) :
    piece.Readable total := by
  intro mark found present
  rcases parsed mark found present with refused | ⟨time, given⟩
  · exact Or.inl refused
  · obtain ⟨share, measured⟩ := exists_percentOf_of_known_total time known
    exact Or.inr ⟨(time, share), except_bind_eq_ok_iff.mpr
      ⟨time, given, except_bind_eq_ok_iff.mpr ⟨share, measured, rfl⟩⟩⟩

end ProgressPiece

namespace EncoderRun

open Encoding ProgressPiece

variable {process : EncoderProcess} {listen : ProgressListener} {total start limit : Value}
  {trace : EncoderTrace}

theorem run_checkTime_of_unlimited (unlimited : limit.isPresent = false) :
    (checkTime process start limit).run trace = .ok () trace := by
  rw [checkTime, unlimited]
  rfl

/-- A blank line is skipped. -/
theorem run_readLine_of_blank {listener : Option ProgressListener} {line : String}
    (blank : Text.strip line = "") :
    (readLine process listener total start limit line).run trace = .ok () trace := by
  unfold readLine
  dsimp only
  rw [if_neg (not_not_intro blank)]
  rfl

/-- A line that counts is kept, and used once the time has been checked. -/
theorem run_readLine_of_present {listener : Option ProgressListener} {line : String}
    (present : Text.strip line ≠ "") :
    (readLine process listener total start limit line).run trace =
      (checkTime process start limit >>= fun _ => absorb listener total (Text.strip line)).run
        { trace with lines := trace.lines ++ [Text.strip line] } := by
  have recorded : (record (Text.strip line)).run trace =
    .ok () { trace with lines := trace.lines ++ [Text.strip line] } := rfl
  unfold readLine
  dsimp only
  rw [if_pos present, run_bind_of_ok recorded]

theorem run_deliver_of_accepted {news : ProgressReport} (accepted : listen news = .ok ()) :
    (deliver (some listen) news).run trace =
      .ok () { trace with reports := trace.reports ++ [news] } := by
  show (liftM (listen news) : Encoding Unit).run _ = _
  rw [accepted]
  rfl

/-- A line without a field changes nothing. -/
theorem run_absorb_of_no_field {listener : Option ProgressListener} {line : String}
    (plain : ProgressBlock.field? line = none) :
    (absorb listener total line).run trace = .ok () trace := by
  have read : (get : Encoding EncoderTrace).run trace = .ok trace trace := rfl
  rw [absorb, run_bind_of_ok read, ProgressBlock.feed_of_no_field plain]
  rfl

/-- A field joins the block; one that ends it has the block told and a new one begun. -/
theorem run_absorb_of_field {listener : Option ProgressListener} {line : String}
    {field : String × String} (found : ProgressBlock.field? line = some field) :
    (absorb listener total line).run trace =
      if isEnd field then
        (announce listener total (field :: trace.block)).run { trace with block := [] }
      else .ok () { trace with block := field :: trace.block } := by
  have read : (get : Encoding EncoderTrace).run trace = .ok trace trace := rfl
  rw [absorb, run_bind_of_ok read, ProgressBlock.feed, found]
  unfold isEnd
  by_cases ended : field.1 = ProgressBlock.endKey
  · simp only [ended, if_true, beq_self_eq_true]
    rfl
  · simp only [ended, if_false, beq_eq_false_iff_ne.mpr ended, Bool.false_eq_true]
    rfl

/-! ## Pieces that are taken -/

section Pieces

variable {listener : Option ProgressListener} {lines : List String} {line : String}

/-- A piece that can be read and that the listener, if there is one, takes the report of. -/
def Taken (listener : Option ProgressListener) (total : Value) (piece : ProgressPiece) : Prop :=
  piece.Readable total ∧
    ∀ listen ∈ listener, ∀ news ∈ report? total piece, listen news = .ok ()

/-- What a listener, if there is one, is told of some lines. -/
def told (listener : Option ProgressListener) (total : Value) (lines : List String) :
    List ProgressReport :=
  if listener.isSome then reports total lines else []

/-- What a listener, if there is one, is told of one piece. -/
def toldOf (listener : Option ProgressListener) (total : Value) (piece : ProgressPiece) :
    Option ProgressReport :=
  listener.bind fun _ => report? total piece

theorem told_eq (listener : Option ProgressListener) (total : Value) (lines : List String) :
    told listener total lines = (pieces lines).1.filterMap (toldOf listener total) := by
  cases listener with
  | none => exact (List.filterMap_eq_nil_iff.mpr fun _ _ => rfl).symm
  | some listen => rfl

/-- Telling what a block says adds its report, if it has one and there is a listener. -/
theorem run_announce_of_taken (trace : EncoderTrace) {piece : ProgressPiece}
    (taken : Taken listener total piece) :
    ∃ log, (announce listener total piece.reverse).run trace =
      .ok () { trace with
        reports := trace.reports ++ (toldOf listener total piece).toList
        log := log } := by
  obtain ⟨readable, accepts⟩ := taken
  obtain ⟨news, said, same⟩ := report?_of_ofBlock readable
  have lifted : (liftM (ProgressNews.ofBlock piece.reverse total) : Encoding ProgressNews).run
      trace = .ok news trace := run_lift_eq_ok_iff.mpr ⟨said, rfl⟩
  have nothing (silent : news.report? = none) : toldOf listener total piece = none := by
    rw [toldOf, ← same, silent]
    exact Option.bind_fun_none listener
  rw [announce, run_bind_of_ok lifted]
  cases news with
  | silent =>
    rw [nothing rfl, Option.toList_none, List.append_nil]
    exact ⟨trace.log, rfl⟩
  | unreadable mark =>
    rw [nothing rfl, Option.toList_none, List.append_nil]
    exact ⟨_, rfl⟩
  | report news =>
    rw [toldOf, ← same]
    cases listener with
    | none =>
      rw [Option.bind_none, Option.toList_none, List.append_nil]
      exact ⟨trace.log, rfl⟩
    | some listen =>
      exact ⟨trace.log, run_deliver_of_accepted (accepts listen rfl news same.symm)⟩

/-- Taking in one line more keeps the pieces as the lines have them. -/
theorem run_absorb_of_taken (trace : EncoderTrace)
    (taken : ∀ piece ∈ (pieces (lines ++ [line])).1, Taken listener total piece)
    (block : trace.block = (pieces lines).2.reverse)
    (reports : trace.reports = told listener total lines) :
    ∃ log, (absorb listener total (Text.strip line)).run trace =
      .ok () { trace with
        block := (pieces (lines ++ [line])).2.reverse
        reports := told listener total (lines ++ [line])
        log := log } := by
  rw [told_eq] at reports ⊢
  cases found : ProgressBlock.field? (Text.strip line) with
  | none =>
    rw [run_absorb_of_no_field found, pieces_of_no_field lines found, ← block, ← reports]
    exact ⟨trace.log, rfl⟩
  | some field =>
    have grown := pieces_of_field lines found
    rw [run_absorb_of_field found]
    cases ended : isEnd field with
    | false =>
      rw [ended, if_neg Bool.false_ne_true] at grown
      rw [grown, ← reports, List.reverse_append, ← block]
      exact ⟨trace.log, rfl⟩
    | true =>
      rw [ended, if_pos rfl] at grown
      -- The block is that of the unfinished piece, which the field ends.
      have piece : field :: trace.block = ((pieces lines).2 ++ [field]).reverse := by
        rw [List.reverse_append, ← block]
        rfl
      have last : (pieces lines).2 ++ [field] ∈ (pieces (lines ++ [line])).1 := by
        rw [grown]
        exact List.mem_append_right _ (List.mem_singleton_self _)
      obtain ⟨log, ran⟩ := run_announce_of_taken { trace with block := [] } (taken _ last)
      rw [if_pos rfl, piece, ran, grown, List.filterMap_append, ← reports]
      exact ⟨log, rfl⟩

end Pieces

end EncoderRun

/-! ## One line more -/

open ProgressPiece EncoderRun

/-- A trace of a run that has read some lines: those that count are kept, the finished pieces are
reported, and what is left over is the block that is being gathered, its latest field first. -/
structure EncoderTrace.Gathered (total : Value) (lines : List String) (trace : EncoderTrace) :
    Prop where
  kept : trace.lines = written lines
  block : trace.block = (pieces lines).2.reverse
  told : trace.reports = (pieces lines).1.filterMap (report? total)

namespace EncoderRun

variable {process : EncoderProcess} {listen : ProgressListener} {total start limit : Value}
  {trace : EncoderTrace} {lines : List String}

/-- Taking in one line more gathers what the lines have. -/
theorem gathered_absorb {line : String} (accepts : ∀ news, listen news = .ok ())
    (readable : ∀ piece ∈ (pieces (lines ++ [line])).1, piece.Readable total)
    (kept : trace.lines = written (lines ++ [line]))
    (block : trace.block = (pieces lines).2.reverse)
    (told : trace.reports = (pieces lines).1.filterMap (report? total)) :
    ∃ after, (absorb (some listen) total (Text.strip line)).run trace = .ok () after ∧
      after.Gathered total (lines ++ [line]) := by
  have taken : ∀ piece ∈ (pieces (lines ++ [line])).1, Taken (some listen) total piece := by
    refine fun piece present => ⟨readable piece present, fun other isListener news _ => ?_⟩
    rw [← Option.some.inj isListener]
    exact accepts news
  obtain ⟨log, ran⟩ := run_absorb_of_taken trace taken block told
  exact ⟨_, ran, kept, rfl, rfl⟩

theorem gathered_readLine (process : EncoderProcess) (start : Value) {line : String}
    (unlimited : limit.isPresent = false)
    (accepts : ∀ news, listen news = .ok ())
    (readable : ∀ piece ∈ (pieces (lines ++ [line])).1, piece.Readable total)
    (gathered : trace.Gathered total lines) :
    ∃ after, (readLine process (some listen) total start limit line).run trace = .ok () after ∧
      after.Gathered total (lines ++ [line]) := by
  by_cases blank : Text.strip line = ""
  · have none : ProgressBlock.field? (Text.strip line) = none := by rw [blank]; rfl
    have same := pieces_of_no_field lines none
    refine ⟨trace, run_readLine_of_blank blank, ?_, by rw [same, gathered.block],
      by rw [same, gathered.told]⟩
    rw [written_append, written_of_blank blank, List.append_nil, gathered.kept]
  · rw [run_readLine_of_present blank,
      Encoding.run_bind_of_ok (run_checkTime_of_unlimited unlimited)]
    refine gathered_absorb accepts readable ?_ gathered.block gathered.told
    rw [written_append, written_of_present blank, ← gathered.kept]

/-- Reading lines keeps the pieces as all lines so far have them. -/
theorem gathered_readLines (process : EncoderProcess) (start : Value) (lines more : List String)
    (unlimited : limit.isPresent = false)
    (accepts : ∀ news, listen news = .ok ())
    (readable : ∀ piece ∈ (pieces (lines ++ more)).1, piece.Readable total)
    (gathered : trace.Gathered total lines) :
    ∃ after, (readLines process (some listen) total start limit more).run trace = .ok () after ∧
      after.Gathered total (lines ++ more) := by
  induction more generalizing lines trace with
  | nil => exact ⟨trace, rfl, by rwa [List.append_nil]⟩
  | cons line more ih =>
    rw [List.append_cons] at readable ⊢
    -- The pieces that are finished with this line stay when others follow.
    have readableNow : ∀ piece ∈ (pieces (lines ++ [line])).1, piece.Readable total :=
      fun piece present => readable piece (pieces_subset_append _ more present)
    obtain ⟨middle, ran, gatheredNow⟩ :=
      gathered_readLine process start unlimited accepts readableNow gathered
    obtain ⟨after, ranMore, gatheredAll⟩ := ih _ readable gatheredNow
    exact ⟨after, (Encoding.run_bind_of_ok ran).trans ranMore, gatheredAll⟩

/-! ## The whole run -/

/-- After a step that succeeds both streams are closed, and the rest of the trace is kept. -/
theorem run_closing_of_ok {step : Encoding Unit} {middle : EncoderTrace}
    (ran : step.run trace = .ok () middle) :
    (closing step).run trace =
      .ok () { middle with outputClosed := true, errorsClosed := true } := by
  change step trace = .ok () middle at ran
  change closing step trace = _
  rw [closing, ran]
  rfl

/-- After a step that fails both streams are closed as well. -/
theorem run_closing_of_error {step : Encoding Unit} {failure : Failure} {middle : EncoderTrace}
    (failed : step.run trace = .error failure middle) :
    (closing step).run trace =
      .error failure { middle with outputClosed := true, errorsClosed := true } := by
  change step trace = .error failure middle at failed
  change closing step trace = _
  rw [closing, failed]
  rfl

theorem gathered_follow (process : EncoderProcess) (start : Value)
    (unlimited : limit.isPresent = false)
    (accepts : ∀ news, listen news = .ok ())
    (readable : ∀ piece ∈ (pieces process.output).1, piece.Readable total)
    (begun : trace.Gathered total []) :
    ∃ after, (closing (follow process (some listen) total start limit)).run trace = .ok () after ∧
      after.Gathered total process.output := by
  obtain ⟨after, ran, gathered⟩ :=
    gathered_readLines process start [] process.output unlimited accepts readable begun
  have followed : (follow process (some listen) total start limit).run trace =
      .ok () { after with requests := after.requests ++ [.wait] } :=
    Encoding.run_bind_of_ok ran
  exact ⟨_, run_closing_of_ok followed, gathered.kept, gathered.block, gathered.told⟩

/-- A process that ends well gives back the lines that count and what it wrote of errors. -/
theorem run_conclude_of_success (command : List String) (trace : EncoderTrace)
    (succeeds : process.code = 0) :
    ∃ after, (conclude process command).run trace =
        .ok ⟨command, 0, "\n".intercalate trace.lines, String.join process.errors⟩ after ∧
      after.reports = trace.reports := by
  unfold conclude
  rw [succeeds]
  exact ⟨_, rfl, rfl⟩

/-- The trace of a run that has been started and has read nothing yet. -/
def begunTrace (command spawned : List String) : EncoderTrace where
  spawned := some spawned
  readings := 1
  log := [⟨.info, "Runner", "Executando comando FFmpeg: " ++ EncoderCommand.line command⟩]

theorem exists_withProgress? {command : List String} (present : command ≠ []) :
    ∃ spawned, withProgress? command = some spawned := by
  rw [withProgress?, List.getLast?_eq_some_getLast present]
  exact ⟨_, rfl⟩

/-- What is left of a run once the process is started. -/
theorem run_of_started {listener : Option ProgressListener} {command spawned : List String}
    (spawning : withProgress? command = some spawned) :
    (run process command listener total limit).run {} =
      (closing (follow process listener total (process.clock 0) limit) >>= fun _ =>
        conclude process command).run (begunTrace command spawned) := by
  unfold run
  rw [spawning]
  rfl

/-- A run without a time limit, of a process that ends well, reads all lines and gives back those
that count. -/
theorem run_of_success {command : List String} (present : command ≠ [])
    (unlimited : limit.isPresent = false) (succeeds : process.code = 0)
    (accepts : ∀ news, listen news = .ok ())
    (readable : ∀ piece ∈ (pieces process.output).1, piece.Readable total) :
    ∃ after, (run process command (some listen) total limit).run {} =
        .ok ⟨command, 0, "\n".intercalate (written process.output), String.join process.errors⟩
          after ∧
      after.reports = reports total process.output := by
  obtain ⟨spawned, spawning⟩ := exists_withProgress? present
  have none : (begunTrace command spawned).Gathered total [] := ⟨rfl, rfl, rfl⟩
  obtain ⟨followed, ran, gathered⟩ :=
    gathered_follow process (process.clock 0) unlimited accepts readable none
  obtain ⟨after, concluded, same⟩ := run_conclude_of_success command followed succeeds
  refine ⟨after, ?_, ?_⟩
  · rw [run_of_started spawning, Encoding.run_bind_of_ok ran, concluded, gathered.kept]
  · rw [same, gathered.told]
    rfl

/-- What the listener of a run hears of, call by call. -/
def heard (process : EncoderProcess) (command : List String) (listen : ProgressListener)
    (total limit : Value) : List ProgressReport :=
  (traced (run process command (some listen) total limit)).2.reports

theorem traced_of_success (process : EncoderProcess) {command : List String}
    (present : command ≠ []) (unlimited : limit.isPresent = false) (succeeds : process.code = 0)
    (accepts : ∀ news, listen news = .ok ())
    (readable : ∀ piece ∈ (pieces process.output).1, piece.Readable total) :
    (traced (run process command (some listen) total limit)).1 =
        .ok ⟨command, 0, "\n".intercalate (written process.output), String.join process.errors⟩ ∧
      heard process command listen total limit = reports total process.output := by
  obtain ⟨after, ran, told⟩ := run_of_success present unlimited succeeds accepts readable
  unfold heard traced
  rw [ran]
  exact ⟨rfl, told⟩

/-- A run without a time limit, of a process that ends well, reports its finished pieces in order,
each once if its last mark stands for a time and not at all otherwise, by what the last values of
its keys say; and it gives back all lines that count. No block tells of another: lines that end a
block are reported as if no others followed, and those that follow as if none came before. -/
theorem heard_of_run {command : List String} (present : command ≠ [])
    (unlimited : limit.isPresent = false) (succeeds : process.code = 0)
    (accepts : ∀ news, listen news = .ok ())
    (readable : ∀ piece ∈ (pieces process.output).1, piece.Readable total) :
    (traced (run process command (some listen) total limit)).1 =
        .ok ⟨command, 0, "\n".intercalate (written process.output), String.join process.errors⟩ ∧
      heard process command listen total limit = reports total process.output ∧
      ∀ first second last value, process.output = first ++ second → first.getLast? = some last →
        ProgressBlock.field? (Text.strip last) = some (ProgressBlock.endKey, value) →
        heard process command listen total limit =
          heard { process with output := first } command listen total limit ++
            heard { process with output := second } command listen total limit := by
  obtain ⟨returned, told⟩ := traced_of_success process present unlimited succeeds accepts readable
  refine ⟨returned, told, ?_⟩
  intro first second last value parted isLast ended
  have split := pieces_append_of_end isLast ended second
  rw [parted, split] at readable
  obtain ⟨-, toldFirst⟩ := traced_of_success { process with output := first }
    present unlimited succeeds accepts
    (fun piece earlier => readable piece (List.mem_append_left _ earlier))
  obtain ⟨-, toldSecond⟩ := traced_of_success { process with output := second }
    present unlimited succeeds accepts
    (fun piece later => readable piece (List.mem_append_right _ later))
  rw [told, toldFirst, toldSecond, parted, reports, split, List.filterMap_append]
  rfl

/-- A process that writes two blocks that say how far it has come, one that does not, a line that
does not count, and a block that it does not finish. -/
def sampleProcess : EncoderProcess where
  output := ["frame=10", "frame=20", "out_time=00:00:02.5", "speed=2x", " progress=continue ",
    "", "press q to stop", "out_time=N/A", "progress=continue",
    "out_time=00:00:10", "progress=end", "out_time=00:00:11"]
  clock _ := .int 0

/-- The two blocks are reported, and the fields of the first are not those of the other. -/
theorem heard_sampleProcess :
    heard sampleProcess ["ffmpeg", "out.mp4"] (fun _ => .ok ()) (.int 10) .null =
        reports (.int 10) sampleProcess.output ∧
      (reports (.int 10) sampleProcess.output).map
          (fun news => (news.percent, news.frame)) =
        [(some (.ofInt 25), some 20), (some (.ofInt 100), none)] := by
  have known : (Value.int 10).le (.int 0) = .ok false ∧ ∃ size real,
      (Value.int 10).number = .ok size ∧ size.toReal = .ok real :=
    ⟨by decide +kernel, .whole 10, .ofInt 10, rfl, by decide +kernel⟩
  have marks : (pieces sampleProcess.output).1.map (last? · "out_time") =
      [some "00:00:02.5", some "N/A", some "00:00:10"] := by decide +kernel
  have readable : ∀ piece ∈ (pieces sampleProcess.output).1, piece.Readable (.int 10) := by
    intro piece present
    refine readable_of_known_total (Or.inr known) ?_
    intro mark found _
    have listed := List.mem_map_of_mem (f := (last? · "out_time")) present
    rw [marks, found] at listed
    rcases List.mem_cons.mp listed with half | listed
    · obtain rfl := Option.some.inj half
      exact Or.inr ⟨.ofRatio false 5 2, by decide +kernel⟩
    rcases List.mem_cons.mp listed with unread | listed
    · obtain rfl := Option.some.inj unread
      exact Or.inl ⟨.badMark (.text "N/A"), by decide +kernel⟩
    · obtain rfl := Option.some.inj (List.mem_singleton.mp listed)
      exact Or.inr ⟨.ofInt 10, by decide +kernel⟩
  exact ⟨(heard_of_run (by decide) rfl rfl (fun _ => rfl) readable).2.1, by decide +kernel⟩

end EncoderRun

end Montage
