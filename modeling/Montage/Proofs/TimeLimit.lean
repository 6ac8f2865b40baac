import Montage.Proofs.EndlessMarks
import Montage.Proofs.RunEndings
import Montage.Proofs.UncheckedNumbers

/-!
# Runs with a time limit

The clock is read once at the start of a run, and once more for every line that counts, before the
line is used. The first line at which more time has passed than the limit ends the run: what came
before it has been reported, nothing else is, and the process is asked to end. What the run then
tells names the limit, if that can be written. If no line is late, the code of the process decides.
Main statement: `settled_of_run`.
-/

namespace Montage

/-- The message of a process that has failed: what it wrote of errors, or its code if that is
nothing. -/
def EncoderProcess.complaint (process : EncoderProcess) : String :=
  let report := Text.strip (String.join process.errors)
  if report = "" then "FFmpeg retornou código " ++ decimalText process.code else report

/-- A clock by which the time since the start can be told. -/
def EncoderProcess.Clocked (process : EncoderProcess) : Prop :=
  ∀ reading, ∃ passed, (process.clock reading).sub (process.clock 0) = .ok passed

/-- Readings that are all real numbers, or all whole ones, tell the time. -/
theorem EncoderProcess.clocked_of_numbers {process : EncoderProcess}
    (numbers : (∀ reading, ∃ seconds, process.clock reading = .real seconds) ∨
      ∀ reading, ∃ seconds, process.clock reading = .int seconds) : process.Clocked := by
  intro reading
  rcases numbers with real | whole
  · obtain ⟨now, readNow⟩ := real reading
    obtain ⟨start, readStart⟩ := real 0
    rw [readNow, readStart]
    exact ⟨_, rfl⟩
  · obtain ⟨now, readNow⟩ := whole reading
    obtain ⟨start, readStart⟩ := whole 0
    rw [readNow, readStart]
    exact ⟨_, rfl⟩

namespace EncoderRun

open Encoding ProgressPiece

variable {process : EncoderProcess} {command : List String} {listener : Option ProgressListener}
  {total limit : Value} {trace : EncoderTrace} {lines : List String} {line : String}

/-! ## Late lines -/

/-- Whether a line that follows some others is late: it counts, and by the reading of the clock
that is taken there more time has passed since the start than the limit. -/
def LateAt (process : EncoderProcess) (limit : Value) (before : List String) (line : String) :
    Prop :=
  Text.strip line ≠ "" ∧
    isOverdue limit (process.clock 0) (process.clock ((written before).length + 1)) = .ok true

instance (process : EncoderProcess) (limit : Value) (before : List String) (line : String) :
    Decidable (LateAt process limit before line) :=
  inferInstanceAs (Decidable (_ ∧ _))

/-- Lines of which none is late. -/
def InTime (process : EncoderProcess) (limit : Value) (lines : List String) : Prop :=
  ∀ before line rest, lines = before ++ line :: rest → ¬ LateAt process limit before line

theorem inTime_iff_getElem : InTime process limit lines ↔
    ∀ place : Fin lines.length, ¬ LateAt process limit (lines.take place) lines[place] := by
  constructor
  · intro inTime place
    refine inTime _ _ (lines.drop (place + 1)) ?_
    rw [Fin.getElem_fin, List.cons_getElem_drop_succ, List.take_append_drop]
  · rintro each before line rest rfl
    have here := each ⟨before.length, by simp⟩
    simpa using here

instance (process : EncoderProcess) (limit : Value) (lines : List String) :
    Decidable (InTime process limit lines) :=
  decidable_of_iff _ inTime_iff_getElem.symm

/-- Lines are in time, or one of them is the first that is late. -/
theorem inTime_or_late (process : EncoderProcess) (limit : Value) (lines : List String) :
    InTime process limit lines ∨ ∃ before line rest, lines = before ++ line :: rest ∧
      LateAt process limit before line ∧ InTime process limit before := by
  induction lines using List.reverseRecOn with
  | nil => exact .inl fun before line rest split => by simp at split
  | append_singleton lines last ih =>
    rcases ih with inTime | ⟨before, line, rest, rfl, late, inTime⟩
    · by_cases late : LateAt process limit lines last
      · exact .inr ⟨lines, last, [], rfl, late, inTime⟩
      · refine .inl fun before line rest split => ?_
        rcases List.eq_nil_or_concat rest with rfl | ⟨rest, other, rfl⟩
        · obtain ⟨rfl, same⟩ := List.append_inj' split rfl
          cases same
          exact late
        · rw [List.concat_eq_append, ← List.cons_append, ← List.append_assoc] at split
          exact inTime before line rest (List.append_inj' split rfl).1
    · exact .inr ⟨before, line, rest ++ [last], by simp, late, inTime⟩

/-- With a positive limit it can always be told whether more time has passed. -/
theorem exists_isOverdue (clocked : process.Clocked)
    (positive : (Value.int 0).lt limit = .ok true) (reading : Nat) :
    ∃ late, isOverdue limit (process.clock 0) (process.clock reading) = .ok late := by
  obtain ⟨passed, difference⟩ := clocked reading
  obtain ⟨since, counted⟩ := Value.number_of_sub difference
  obtain ⟨_, _, compared⟩ := except_bind_eq_ok_iff.mp positive
  obtain ⟨allowed, limited, _⟩ := except_bind_eq_ok_iff.mp compared
  refine ⟨allowed.lt since, ?_⟩
  rw [isOverdue, difference]
  exact Value.lt_of_numbers limited counted

/-! ## Reading -/

/-- Of what is read in time, every finished piece is taken. -/
def Undisturbed (process : EncoderProcess) (listener : Option ProgressListener)
    (total limit : Value) : Prop :=
  ∀ lines rest, process.output = lines ++ rest → InTime process limit lines →
    ∀ piece ∈ (pieces lines).1, Taken listener total piece

/-- With a known total, a run is not disturbed unless it reads a mark with too many hours or its
listener refuses a report. -/
theorem undisturbed_of_no_excess (accepts : Accepting listener) (known : Timeline.Known total)
    (none : ∀ piece ∈ (pieces process.output).1, piece.excess? = none) :
    Undisturbed process listener total limit := by
  intro lines rest split _ piece present
  have finished : piece ∈ (pieces process.output).1 := by
    rw [split]
    exact pieces_subset_append lines rest present
  exact taken_of_no_excess accepts known (none piece finished)

/-- A run that has read some lines in time. -/
structure Reached (listener : Option ProgressListener) (total : Value) (lines : List String)
    (trace : EncoderTrace) : Prop where
  kept : trace.lines = written lines
  block : trace.block = (pieces lines).2.reverse
  told : trace.reports = told listener total lines
  readings : trace.readings = (written lines).length + 1
  unasked : trace.requests = []

theorem readLines_append (start : Value) (lines more : List String) :
    readLines process listener total start limit (lines ++ more) =
      readLines process listener total start limit lines >>= fun _ =>
        readLines process listener total start limit more := by
  induction lines with
  | nil => exact (pure_bind ..).symm
  | cons line lines ih =>
    rw [List.cons_append, readLines, readLines, ih, bind_assoc]

section Reading

variable (positive : (Value.int 0).lt limit = .ok true)

include positive

/-- A line in time is used, and the clock is read once if it counts. -/
theorem reached_readLine (clocked : process.Clocked) (inTime : ¬ LateAt process limit lines line)
    (taken : ∀ piece ∈ (pieces (lines ++ [line])).1, Taken listener total piece)
    (reached : Reached listener total lines trace) :
    ∃ after,
      (readLine process listener total (process.clock 0) limit line).run trace = .ok () after ∧
      Reached listener total (lines ++ [line]) after := by
  by_cases blank : Text.strip line = ""
  · have none : ProgressBlock.field? (Text.strip line) = none := by rw [blank]; rfl
    have same := pieces_of_no_field lines none
    have counted : written (lines ++ [line]) = written lines := by
      rw [written_append, written_of_blank blank, List.append_nil]
    refine ⟨trace, run_readLine_of_blank blank, ?_⟩
    constructor
    case kept => rw [counted, reached.kept]
    case block => rw [same, reached.block]
    case told => rw [told_eq, same, ← told_eq, reached.told]
    case readings => rw [counted, reached.readings]
    case unasked => exact reached.unasked
  · obtain ⟨late, overdue⟩ := exists_isOverdue clocked positive trace.readings
    have early : late = false := by
      cases late with
      | false => rfl
      | true => exact absurd ⟨blank, reached.readings ▸ overdue⟩ inTime
    have counted : written (lines ++ [line]) = trace.lines ++ [Text.strip line] := by
      rw [written_append, written_of_present blank, reached.kept]
    have checked : (checkTime process (process.clock 0) limit).run
        { trace with lines := trace.lines ++ [Text.strip line] } =
          .ok () { trace with
            lines := trace.lines ++ [Text.strip line], readings := trace.readings + 1 } := by
      rw [run_checkTime_of_limited (Value.isPresent_of_positive positive), overdue, early]
    obtain ⟨log, ran⟩ := run_absorb_of_taken
      { trace with lines := trace.lines ++ [Text.strip line], readings := trace.readings + 1 }
      taken reached.block reached.told
    refine ⟨_, (run_readLine_of_present blank).trans ((run_bind_of_ok checked).trans ran), ?_⟩
    constructor
    case kept => exact counted.symm
    case block => rfl
    case told => rfl
    case readings => rw [counted, List.length_append, reached.kept, reached.readings]; rfl
    case unasked => exact reached.unasked

/-- A late line is recorded, but not used: the process is asked to end. -/
theorem run_readLine_of_late (late : LateAt process limit lines line)
    (reached : Reached listener total lines trace) :
    ∃ after, (readLine process listener total (process.clock 0) limit line).run trace =
        .error (.naming limit (.encoder (.timedOut limit))) after ∧
      after.reports = told listener total lines ∧ after.requests = farewell process := by
  obtain ⟨present, overdue⟩ := late
  obtain ⟨after, ended, asked, reports⟩ := run_terminate process
    { trace with lines := trace.lines ++ [Text.strip line], readings := trace.readings + 1 }
  refine ⟨after, ?_, reports.trans reached.told, ?_⟩
  · rw [run_readLine_of_present present]
    refine run_bind_eq_error_iff.mpr (.inl ?_)
    rw [run_checkTime_of_limited (Value.isPresent_of_positive positive)]
    dsimp only
    rw [reached.readings, overdue]
    exact run_bind_eq_error_iff.mpr (.inr ⟨(), after, reached.readings ▸ ended, rfl⟩)
  · rw [asked, reached.unasked, List.nil_append]

/-- Lines in time are all used. -/
theorem reached_readLines (clocked : process.Clocked) {more : List String}
    (reached : Reached listener total lines trace) (inTime : InTime process limit (lines ++ more))
    (taken : ∀ piece ∈ (pieces (lines ++ more)).1, Taken listener total piece) :
    ∃ after,
      (readLines process listener total (process.clock 0) limit more).run trace = .ok () after ∧
      Reached listener total (lines ++ more) after := by
  induction more generalizing lines trace with
  | nil => exact ⟨trace, rfl, by rwa [List.append_nil]⟩
  | cons line more ih =>
    have early : ¬ LateAt process limit lines line := inTime lines line more rfl
    rw [List.append_cons] at inTime taken ⊢
    -- The pieces that are finished with this line stay when others follow.
    have takenNow : ∀ piece ∈ (pieces (lines ++ [line])).1, Taken listener total piece :=
      fun piece present => taken piece (pieces_subset_append _ more present)
    obtain ⟨middle, ran, now⟩ := reached_readLine positive clocked early takenNow reached
    obtain ⟨after, ranMore, all⟩ := ih now inTime taken
    exact ⟨after, (run_bind_of_ok ran).trans ranMore, all⟩

/-- A run whose output is in time reads all of it and waits for its process. -/
theorem run_follow_of_inTime (clocked : process.Clocked)
    (undisturbed : Undisturbed process listener total limit)
    (inTime : InTime process limit process.output) (begun : Reached listener total [] trace) :
    ∃ after, (follow process listener total (process.clock 0) limit).run trace = .ok () after ∧
      after.lines = written process.output ∧ after.reports = told listener total process.output ∧
      after.requests = [.wait] := by
  have taken := undisturbed process.output [] (List.append_nil _).symm inTime
  obtain ⟨after, ran, reached⟩ := reached_readLines positive clocked begun inTime taken
  refine ⟨_, run_bind_of_ok ran, reached.kept, reached.told, ?_⟩
  show after.requests ++ [.wait] = [.wait]
  rw [reached.unasked, List.nil_append]

/-- The first late line ends the reading, whatever follows it. -/
theorem run_follow_of_late (clocked : process.Clocked)
    (undisturbed : Undisturbed process listener total limit) {before rest : List String}
    (split : process.output = before ++ line :: rest) (late : LateAt process limit before line)
    (inTime : InTime process limit before) (begun : Reached listener total [] trace) :
    ∃ after, (follow process listener total (process.clock 0) limit).run trace =
        .error (.naming limit (.encoder (.timedOut limit))) after ∧
      after.reports = told listener total before ∧ after.requests = farewell process := by
  have taken := undisturbed before (line :: rest) split inTime
  obtain ⟨middle, read, reached⟩ := reached_readLines positive clocked begun inTime taken
  obtain ⟨after, stopped, reports, asked⟩ := run_readLine_of_late positive late reached
  refine ⟨after, run_bind_eq_error_iff.mpr (.inl ?_), reports, asked⟩
  rw [split, readLines_append, run_bind_of_ok read]
  exact run_bind_eq_error_iff.mpr (.inl stopped)

end Reading

/-! ## The whole run -/

/-- What the code of a process means for a run that has read all output. -/
def verdict (process : EncoderProcess) (command : List String) : Except Failure EncoderResult :=
  if process.code = 0 then
    .ok ⟨command, 0, "\n".intercalate (written process.output), String.join process.errors⟩
  else .error (.encoder (.exited process.code (Text.strip (String.join process.errors))))

theorem code?_of_verdict {failure : EncoderError}
    (failed : verdict process command = .error (.encoder failure)) :
    failure.code? = some process.code := by
  unfold verdict at failed
  split at failed
  · cases failed
  · cases failed
    rfl

theorem verdict_ne_defect {cause : Defect} :
    verdict process command ≠ .error (.defect cause) := by
  unfold verdict
  split <;> exact nofun

/-- How a run ends that has a time limit. -/
structure Settled (process : EncoderProcess) (command : List String)
    (listener : Option ProgressListener) (total limit : Value)
    (outcome : Except Failure EncoderResult) (trace : EncoderTrace) : Prop where
  /-- It fails for the time, which is no code of the process, exactly if some line is late. -/
  timedOut : ¬ limit.Overlong →
    ((∃ failure : EncoderError, outcome = .error (.encoder failure) ∧
      failure.code? = none ∧
      failure.message = "Comando FFmpeg excedeu timeout de " ++ limit.bare ++ "s") ↔
    ∃ before line rest, process.output = before ++ line :: rest ∧
      LateAt process limit before line)
  /-- A limit of more digits than can be written has no message, so that a late line is then a
  defect. -/
  unnamed : limit.Overlong →
    (outcome = .error (.defect .badValue) ↔
    ∃ before line rest, process.output = before ++ line :: rest ∧
      LateAt process limit before line)
  /-- Then just the blocks before the first late line have been reported. The process has been
  asked to end, and has been ended by force if it ignored that. -/
  stopped : ∀ before line rest, process.output = before ++ line :: rest →
    LateAt process limit before line → InTime process limit before →
    trace.reports = told listener total before ∧ .terminate ∈ trace.requests ∧
      (.kill ∈ trace.requests ↔ process.stubborn = true)
  /-- Otherwise all blocks have been reported, and a code other than zero is a failure. -/
  exited : InTime process limit process.output →
    trace.reports = told listener total process.output ∧
    ((∃ failure : EncoderError, outcome = .error (.encoder failure) ∧
      failure.code? = some process.code ∧ failure.message = process.complaint) ↔
      process.code ≠ 0)
  /-- With a code of zero the result has the command as it was given, and all that was written. -/
  returned : InTime process limit process.output →
    ((outcome = .ok ⟨command, 0, "\n".intercalate (written process.output),
      String.join process.errors⟩) ↔ process.code = 0)

theorem reached_begunTrace (listener : Option ProgressListener) (total : Value)
    (command spawned : List String) :
    Reached listener total [] (begunTrace command spawned) :=
  ⟨rfl, rfl, (told_eq listener total []).symm, rfl, rfl⟩

theorem kill_mem_farewell_iff (process : EncoderProcess) :
    .kill ∈ farewell process ↔ process.stubborn = true := by
  unfold farewell
  cases process.stubborn with
  | true => exact iff_of_true (by decide) rfl
  | false => exact iff_of_false (by decide) Bool.false_ne_true

section Run

variable (present : command ≠ []) (clocked : process.Clocked)
  (positive : (Value.int 0).lt limit = .ok true)
  (undisturbed : Undisturbed process listener total limit)

include present clocked positive undisturbed

theorem traced_of_inTime (inTime : InTime process limit process.output) :
    ∃ trace, traced (run process command listener total limit) =
      (verdict process command, trace) ∧
      trace.reports = told listener total process.output := by
  obtain ⟨spawned, spawning⟩ := exists_withProgress? present
  obtain ⟨middle, followed, kept, reports, _⟩ := run_follow_of_inTime positive clocked undisturbed
    inTime (reached_begunTrace listener total command spawned)
  unfold traced verdict
  rw [run_of_started spawning, run_bind_of_ok (run_closing_of_ok followed), ← kept]
  unfold conclude
  by_cases succeeds : process.code = 0
  · rw [if_pos succeeds, if_pos succeeds, succeeds]
    exact ⟨_, rfl, reports⟩
  · rw [if_neg succeeds, if_neg succeeds]
    exact ⟨_, rfl, reports⟩

theorem traced_of_late {before rest : List String} (split : process.output = before ++ line :: rest)
    (late : LateAt process limit before line) (inTime : InTime process limit before) :
    ∃ trace, traced (run process command listener total limit) =
      (.error (.naming limit (.encoder (.timedOut limit))), trace) ∧
      trace.reports = told listener total before ∧ trace.requests = farewell process := by
  obtain ⟨spawned, spawning⟩ := exists_withProgress? present
  obtain ⟨middle, stopped, reports, asked⟩ := run_follow_of_late positive clocked undisturbed
    split late inTime (reached_begunTrace listener total command spawned)
  unfold traced
  rw [run_of_started spawning, run_bind_eq_error_iff.mpr (.inl (run_closing_of_error stopped))]
  exact ⟨_, rfl, reports, asked⟩

end Run

/-- A run with a positive limit that is disturbed neither by what it reads nor by its listener ends
as the clock and the code of its process have it. -/
theorem settled_of_run (present : command ≠ []) (clocked : process.Clocked)
    (positive : (Value.int 0).lt limit = .ok true)
    (undisturbed : Undisturbed process listener total limit) :
    let ended := traced (run process command listener total limit)
    Settled process command listener total limit ended.1 ended.2 := by
  dsimp only
  constructor
  case timedOut =>
    intro short
    rcases inTime_or_late process limit process.output with
      inTime | ⟨before, line, rest, split, late, earlier⟩
    · obtain ⟨trace, ended, -⟩ := traced_of_inTime present clocked positive undisturbed inTime
      rw [ended]
      refine iff_of_false ?_ ?_
      · rintro ⟨failure, failed, codeless, -⟩
        rw [code?_of_verdict failed] at codeless
        cases codeless
      · rintro ⟨before, line, rest, split, late⟩
        exact inTime before line rest split late
    · obtain ⟨trace, ended, -⟩ :=
        traced_of_late present clocked positive undisturbed split late earlier
      rw [ended, Failure.naming_of_not_overlong short]
      exact iff_of_true ⟨.timedOut limit, rfl, rfl, rfl⟩ ⟨before, line, rest, split, late⟩
  case unnamed =>
    intro long
    rcases inTime_or_late process limit process.output with
      inTime | ⟨before, line, rest, split, late, earlier⟩
    · obtain ⟨trace, ended, -⟩ := traced_of_inTime present clocked positive undisturbed inTime
      rw [ended]
      refine iff_of_false verdict_ne_defect ?_
      rintro ⟨before, line, rest, split, late⟩
      exact inTime before line rest split late
    · obtain ⟨trace, ended, -⟩ :=
        traced_of_late present clocked positive undisturbed split late earlier
      rw [ended, Failure.naming_of_overlong long]
      exact iff_of_true rfl ⟨before, line, rest, split, late⟩
  case stopped =>
    intro before line rest split late inTime
    obtain ⟨trace, ended, reports, asked⟩ :=
      traced_of_late present clocked positive undisturbed split late inTime
    rw [ended]
    dsimp only
    rw [asked]
    exact ⟨reports, List.mem_append_left _ (.head _), kill_mem_farewell_iff process⟩
  case exited =>
    intro inTime
    obtain ⟨trace, ended, reports⟩ :=
      traced_of_inTime present clocked positive undisturbed inTime
    rw [ended]
    refine ⟨reports, fun ⟨failure, failed, _⟩ succeeds => ?_, fun fails => ?_⟩
    · rw [verdict, if_pos succeeds] at failed
      cases failed
    · exact ⟨_, if_neg fails, rfl, rfl⟩
  case returned =>
    intro inTime
    obtain ⟨trace, ended, -⟩ := traced_of_inTime present clocked positive undisturbed inTime
    rw [ended]
    refine ⟨fun given => ?_, fun succeeds => if_pos succeeds⟩
    by_contra fails
    rw [verdict, if_neg fails] at given
    cases given

/-- A process that is late with its second block and ignores the request to end. -/
def overdueProcess : EncoderProcess where
  output := ["out_time=00:00:01", "", "progress=continue", "out_time=00:00:02", "progress=end"]
  stubborn := true
  clock reading := .int (10 * reading)

/-- Its first block is reported, and it is ended by force. -/
theorem settled_overdueProcess :
    let listener : Option ProgressListener := some fun _ => .ok ()
    let ended := traced (run overdueProcess ["ffmpeg", "out.mp4"] listener .null (.int 25))
    (∃ failure : EncoderError, ended.1 = .error (.encoder failure) ∧ failure.code? = none) ∧
      ended.2.reports =
        reports .null ["out_time=00:00:01", "", "progress=continue"] ∧
      .kill ∈ ended.2.requests := by
  have clocked : overdueProcess.Clocked :=
    EncoderProcess.clocked_of_numbers (.inr fun reading => ⟨10 * reading, rfl⟩)
  have accepts : Accepting (some fun _ => .ok ()) := by
    intro listen isListener news
    rw [← Option.some.inj isListener]
  have undisturbed : Undisturbed overdueProcess (some fun _ => .ok ()) .null (.int 25) :=
    undisturbed_of_no_excess accepts .absent (by decide +kernel)
  have present : (["ffmpeg", "out.mp4"] : List String) ≠ [] := by decide
  have settled := settled_of_run present clocked (by decide +kernel) undisturbed
  have late : LateAt overdueProcess (.int 25) ["out_time=00:00:01", "", "progress=continue"]
      "out_time=00:00:02" := by decide +kernel
  have short : ¬ (Value.int 25).Overlong := Value.isSpellable_iff.mp (by decide +kernel)
  obtain ⟨failure, failed, codeless, -⟩ := (settled.timedOut short).mpr ⟨_, _, _, rfl, late⟩
  obtain ⟨told, -, killed⟩ := settled.stopped _ _ _ rfl late (by decide +kernel)
  exact ⟨⟨failure, failed, codeless⟩, told, killed.mpr rfl⟩

end EncoderRun

end Montage
