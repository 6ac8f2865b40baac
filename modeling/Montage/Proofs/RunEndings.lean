import Montage.Proofs.Reporting

/-!
# How a run ends

Once its process is started a run can end in four ways. It gives a result, it reports the code of a
failed process, it ends a process that took too long, or it is broken off while it still reads what
the process writes (`EncoderRun.Ending`). A process that took too long is reported by its limit; a
limit with too many digits for that makes the report a defect. Both streams are closed in any case.
In the first three ways a wait for the process has returned before the run ends; a run that is
broken off asks nothing of its process and leaves it behind (`EncoderProcess.Reaped`). Main
statement: `ending_of_run`.
-/

namespace Montage

/-- Whether a wait for the end of a process has returned. A brief one returns unless the process
ignores the request to end. -/
def EncoderProcess.Reaped (process : EncoderProcess) (requests : List ProcessRequest) : Prop :=
  .wait ∈ requests ∨ .waitBriefly ∈ requests ∧ process.stubborn = false

instance (process : EncoderProcess) (requests : List ProcessRequest) :
    Decidable (process.Reaped requests) :=
  inferInstanceAs (Decidable (_ ∨ _ ∧ _))

namespace EncoderRun

open Encoding ProgressPiece

/-- What is asked of a process that took too long. -/
def farewell (process : EncoderProcess) : List ProcessRequest :=
  [.terminate, .waitBriefly] ++ if process.stubborn then [.kill, .wait] else []

/-- Whether more time than the limit lies between two readings of the clock. -/
def isOverdue (limit start reading : Value) : Except Defect Bool := do
  limit.lt (← reading.sub start)

/-- What breaks off the reading of the output, the reports that the listener has been given being
`told`. -/
inductive Interruption (process : EncoderProcess) (listener : Option ProgressListener)
    (total limit : Value) (told : List ProgressReport) : Failure → Prop
  /-- The time that has passed cannot be told, or not be compared with the limit. -/
  | clock {reading : Nat} {cause : Defect} : limit.isPresent = true →
      isOverdue limit (process.clock 0) (process.clock reading) = .error cause →
      Interruption process listener total limit told (.defect cause)
  /-- A finished piece cannot be read. -/
  | piece {piece : ProgressPiece} {failure : Failure} : piece ∈ (pieces process.output).1 →
      ProgressNews.ofBlock piece.reverse total = .error failure →
      Interruption process listener total limit told failure
  /-- The listener fails on the last report. -/
  | listener {listen : ProgressListener} {news : ProgressReport} {failure : Failure} :
      listener = some listen → told.getLast? = some news → listen news = .error failure →
      Interruption process listener total limit told failure

/-- How a run ends, and what has been asked of its process by then. -/
inductive Ending (process : EncoderProcess) (command : List String)
    (listener : Option ProgressListener) (total limit : Value) (told : List ProgressReport) :
    Except Failure EncoderResult → List ProcessRequest → Prop
  | returned {output : String} : process.code = 0 →
      Ending process command listener total limit told
        (.ok ⟨command, 0, output, String.join process.errors⟩) [.wait]
  | exited : process.code ≠ 0 →
      Ending process command listener total limit told
        (.error (.encoder (.exited process.code (Text.strip (String.join process.errors)))))
        [.wait]
  | timedOut {reading : Nat} : limit.isPresent = true →
      isOverdue limit (process.clock 0) (process.clock reading) = .ok true → ¬ limit.Overlong →
      Ending process command listener total limit told (.error (.encoder (.timedOut limit)))
        (farewell process)
  /-- The time is up as well, but the limit is too long for the message. -/
  | unnamed {reading : Nat} : limit.isPresent = true →
      isOverdue limit (process.clock 0) (process.clock reading) = .ok true → limit.Overlong →
      Ending process command listener total limit told (.error (.defect .badValue))
        (farewell process)
  | interrupted {failure : Failure} :
      Interruption process listener total limit told failure →
      Ending process command listener total limit told (.error failure) []

variable {process : EncoderProcess} {command : List String} {listener : Option ProgressListener}
  {total limit : Value}

theorem reaped_farewell (process : EncoderProcess) : process.Reaped (farewell process) := by
  unfold EncoderProcess.Reaped farewell
  cases process.stubborn with
  | true => exact .inl (by decide)
  | false => exact .inr ⟨by decide, rfl⟩

/-- A process is left behind exactly by a run that asks nothing of it. -/
theorem Ending.reaped_iff {told : List ProgressReport} {outcome : Except Failure EncoderResult}
    {requests : List ProcessRequest}
    (ending : Ending process command listener total limit told outcome requests) :
    process.Reaped requests ↔ requests ≠ [] := by
  cases ending with
  | returned _ => exact iff_of_true (.inl (by decide)) (by decide)
  | exited _ => exact iff_of_true (.inl (by decide)) (by decide)
  | timedOut _ _ _ | unnamed _ _ _ =>
    exact iff_of_true (reaped_farewell process) (List.cons_ne_nil _ _)
  | interrupted _ =>
    refine iff_of_false ?_ (not_not_intro rfl)
    rintro (never | ⟨never, -⟩)
    · cases never
    · cases never

/-! ## Reading -/

/-- A run that is reading: nothing has been asked of its process yet, and the pieces that are to
come, begun with the block that is being gathered, are pieces of the whole output. -/
structure Underway (process : EncoderProcess) (rest : List String) (trace : EncoderTrace) :
    Prop where
  unasked : trace.requests = []
  plain : ∀ field ∈ trace.block.reverse, isEnd field = false
  ahead : (cutAfter isEnd (trace.block.reverse ++ fields rest)).1 ⊆ (pieces process.output).1

/-- How the reading of the output fails. -/
inductive Stopped (process : EncoderProcess) (listener : Option ProgressListener)
    (total limit : Value) : Failure → EncoderTrace → Prop
  | timedOut {reading : Nat} {trace : EncoderTrace} : limit.isPresent = true →
      isOverdue limit (process.clock 0) (process.clock reading) = .ok true →
      trace.requests = farewell process →
      Stopped process listener total limit (.naming limit (.encoder (.timedOut limit))) trace
  | interrupted {failure : Failure} {trace : EncoderTrace} :
      Interruption process listener total limit trace.reports failure → trace.requests = [] →
      Stopped process listener total limit failure trace

variable {rest : List String} {trace : EncoderTrace}

theorem run_terminate (process : EncoderProcess) (trace : EncoderTrace) :
    ∃ after, (terminate process).run trace = .ok () after ∧
      after.requests = trace.requests ++ farewell process ∧ after.reports = trace.reports := by
  unfold terminate farewell
  cases process.stubborn with
  | true => exact ⟨_, rfl, by simp, rfl⟩
  | false => exact ⟨_, rfl, by simp, rfl⟩

/-- With a limit every check reads the clock once, and goes on if it is not overdue. -/
theorem run_checkTime_of_limited {start : Value} (limited : limit.isPresent = true) :
    (checkTime process start limit).run trace =
      match isOverdue limit start (process.clock trace.readings) with
      | .error cause => .error (.defect cause) { trace with readings := trace.readings + 1 }
      | .ok false => .ok () { trace with readings := trace.readings + 1 }
      | .ok true =>
        (terminate process >>= fun _ => throw (.naming limit (.encoder (.timedOut limit)))).run
          { trace with readings := trace.readings + 1 } := by
  have read : (now process).run trace =
    .ok (process.clock trace.readings) { trace with readings := trace.readings + 1 } := rfl
  unfold checkTime isOverdue
  rw [if_pos limited, run_bind_of_ok read]
  cases (process.clock trace.readings).sub start with
  | error cause => rfl
  | ok passed =>
    show (liftM (limit.lt passed) >>= _ : Encoding Unit).run _ = match limit.lt passed with
      | .error cause => _
      | .ok false => _
      | .ok true => _
    cases limit.lt passed with
    | error cause => rfl
    | ok overdue => cases overdue <;> rfl

/-- A check of the time lets the reading go on, or stops it. -/
theorem ensures_checkTime (underway : Underway process rest trace) :
    Ensures (fun _ after => Underway process rest after) (Stopped process listener total limit)
      ((checkTime process (process.clock 0) limit).run trace) := by
  cases limited : limit.isPresent with
  | false =>
    rw [run_checkTime_of_unlimited limited]
    exact .ok underway
  | true =>
    rw [run_checkTime_of_limited limited]
    cases overdue : isOverdue limit (process.clock 0) (process.clock trace.readings) with
    | error cause => exact .error (.interrupted (.clock limited overdue) underway.unasked)
    | ok late =>
      cases late with
      | false => exact .ok ⟨underway.unasked, underway.plain, underway.ahead⟩
      | true =>
        obtain ⟨after, ended, asked, _⟩ :=
          run_terminate process { trace with readings := trace.readings + 1 }
        dsimp only
        rw [run_bind_of_ok ended]
        refine .error (.timedOut limited overdue ?_)
        rw [asked, underway.unasked, List.nil_append]

theorem ensures_deliver (underway : Underway process rest trace) (news : ProgressReport) :
    Ensures (fun _ after => Underway process rest after) (Stopped process listener total limit)
      ((deliver listener news).run trace) := by
  cases listener with
  | none => exact .ok underway
  | some listen =>
    have noted : (modify fun trace => { trace with reports := trace.reports ++ [news] } :
      Encoding Unit).run trace = .ok () { trace with reports := trace.reports ++ [news] } := rfl
    show Ensures _ _ ((modify _ >>= fun _ => liftM (listen news) : Encoding Unit).run trace)
    rw [run_bind_of_ok noted]
    refine ensures_lift (fun _ _ => ⟨underway.unasked, underway.plain, underway.ahead⟩) ?_
    intro failure refused
    exact .interrupted (.listener rfl List.getLast?_concat refused) underway.unasked

theorem ensures_announce {piece : ProgressPiece} (underway : Underway process rest trace)
    (finished : piece ∈ (pieces process.output).1) :
    Ensures (fun _ after => Underway process rest after) (Stopped process listener total limit)
      ((announce listener total piece.reverse).run trace) := by
  have read : Ensures (fun _ state => state = trace) (Stopped process listener total limit)
      ((liftM (ProgressNews.ofBlock piece.reverse total) : Encoding ProgressNews).run trace) :=
    ensures_lift (fun _ _ => rfl) fun failure refused =>
      .interrupted (.piece finished refused) underway.unasked
  refine ensures_bind read ?_
  rintro news _ rfl
  cases news with
  | silent => exact .ok underway
  | unreadable mark => exact .ok ⟨underway.unasked, underway.plain, underway.ahead⟩
  | report news => exact ensures_deliver underway news

theorem ensures_absorb {line : String} (underway : Underway process (line :: rest) trace) :
    Ensures (fun _ after => Underway process rest after) (Stopped process listener total limit)
      ((absorb listener total (Text.strip line)).run trace) := by
  have ahead := underway.ahead
  rw [← List.singleton_append, fields_append, fields_singleton] at ahead
  cases found : ProgressBlock.field? (Text.strip line) with
  | none =>
    rw [found] at ahead
    rw [run_absorb_of_no_field found]
    exact .ok ⟨underway.unasked, underway.plain, ahead⟩
  | some field =>
    rw [found, Option.toList_some, List.singleton_append] at ahead
    rw [run_absorb_of_field found]
    cases ended : isEnd field with
    | false =>
      refine .ok ⟨underway.unasked, ?_, ?_⟩
      · intro other present
        rw [List.reverse_cons] at present
        rcases List.mem_append.mp present with earlier | last
        · exact underway.plain other earlier
        · rw [List.mem_singleton.mp last, ended]
      · rwa [List.reverse_cons, List.append_assoc, List.singleton_append]
    | true =>
      -- The field ends the first of the pieces that were to come.
      rw [cutAfter_of_end underway.plain ended] at ahead
      obtain ⟨finished, ahead⟩ := List.cons_subset.mp ahead
      have block : field :: trace.block = (trace.block.reverse ++ [field]).reverse := by
        rw [List.reverse_append, List.reverse_reverse]
        rfl
      rw [if_pos rfl, block]
      exact ensures_announce ⟨underway.unasked, List.forall_mem_nil _, ahead⟩ finished

/-- One line more lets the reading go on behind it, or stops it. -/
theorem ensures_readLine {line : String} (underway : Underway process (line :: rest) trace) :
    Ensures (fun _ after => Underway process rest after) (Stopped process listener total limit)
      ((readLine process listener total (process.clock 0) limit line).run trace) := by
  by_cases blank : Text.strip line = ""
  · have ahead := underway.ahead
    have nothing : fields [line] = [] := by rw [fields, written_of_blank blank]; rfl
    rw [← List.singleton_append, fields_append, nothing, List.nil_append] at ahead
    rw [run_readLine_of_blank blank]
    exact .ok ⟨underway.unasked, underway.plain, ahead⟩
  · have kept : Underway process (line :: rest)
        { trace with lines := trace.lines ++ [Text.strip line] } :=
      ⟨underway.unasked, underway.plain, underway.ahead⟩
    rw [run_readLine_of_present blank]
    exact ensures_bind (ensures_checkTime kept) fun _ _ checked => ensures_absorb checked

/-- Reading comes to the end of the output, or is stopped. -/
theorem ensures_readLines (underway : Underway process rest trace) :
    Ensures (fun _ after => Underway process [] after) (Stopped process listener total limit)
      ((readLines process listener total (process.clock 0) limit rest).run trace) := by
  induction rest generalizing trace with
  | nil => exact .ok underway
  | cons line rest ih =>
    exact ensures_bind (ensures_readLine underway) fun _ _ read => ih read

/-! ## The whole run -/

theorem ensures_follow (begun : Underway process process.output trace) :
    Ensures (fun _ after => after.requests = [.wait]) (Stopped process listener total limit)
      ((follow process listener total (process.clock 0) limit).run trace) := by
  refine ensures_bind (ensures_readLines begun) ?_
  intro _ middle read
  have waited : middle.requests ++ [.wait] = [.wait] := by rw [read.unasked, List.nil_append]
  exact .ok waited

/-- A run that has ended in one of the four ways, with both streams of its process closed. -/
structure Ended (process : EncoderProcess) (command : List String)
    (listener : Option ProgressListener) (total limit : Value)
    (outcome : Except Failure EncoderResult) (trace : EncoderTrace) : Prop where
  ending : Ending process command listener total limit trace.reports outcome trace.requests
  outputClosed : trace.outputClosed = true
  errorsClosed : trace.errorsClosed = true

theorem Stopped.ending {failure : Failure}
    (stopped : Stopped process listener total limit failure trace) (command : List String) :
    Ending process command listener total limit trace.reports (.error failure) trace.requests := by
  cases stopped with
  | timedOut limited overdue asked =>
    rw [asked]
    by_cases long : limit.Overlong
    · rw [Failure.naming_of_overlong long]
      exact .unnamed limited overdue long
    · rw [Failure.naming_of_not_overlong long]
      exact .timedOut limited overdue long
  | interrupted broken unasked =>
    rw [unasked]
    exact .interrupted broken

/-- Closing the streams changes neither how the reading ended nor what was asked for. -/
theorem ensures_closing {step : Encoding Unit} (command : List String)
    (read : Ensures (fun _ after => after.requests = [.wait])
      (Stopped process listener total limit) (step.run trace)) :
    Ensures
      (fun _ after =>
        after.requests = [.wait] ∧ after.outputClosed = true ∧ after.errorsClosed = true)
      (fun failure after => Ended process command listener total limit (.error failure) after)
      ((closing step).run trace) := by
  cases ran : step.run trace with
  | ok result middle =>
    have waited := read.of_ok ran
    rw [run_closing_of_ok ran]
    exact .ok ⟨waited, rfl, rfl⟩
  | error failure middle =>
    have stopped := read.of_error ran
    rw [run_closing_of_error ran]
    exact .error ⟨stopped.ending command, rfl, rfl⟩

/-- A process that has ended decides by its code how the run ends. -/
theorem ensures_conclude (command : List String) (waited : trace.requests = [.wait])
    (outputClosed : trace.outputClosed = true) (errorsClosed : trace.errorsClosed = true) :
    Ensures (fun result after => Ended process command listener total limit (.ok result) after)
      (fun failure after => Ended process command listener total limit (.error failure) after)
      ((conclude process command).run trace) := by
  unfold conclude
  dsimp only
  by_cases succeeds : process.code = 0
  · have returned : Ending process command listener total limit trace.reports
        (.ok ⟨command, process.code, "\n".intercalate trace.lines, String.join process.errors⟩)
        trace.requests := by
      rw [waited, succeeds]
      exact .returned succeeds
    rw [if_pos succeeds]
    exact .ok ⟨returned, outputClosed, errorsClosed⟩
  · have exited : Ending process command listener total limit trace.reports
        (.error (.encoder (.exited process.code (Text.strip (String.join process.errors)))))
        trace.requests := by
      rw [waited]
      exact .exited succeeds
    rw [if_neg succeeds]
    exact .error ⟨exited, outputClosed, errorsClosed⟩

theorem ensures_run (process : EncoderProcess) (listener : Option ProgressListener)
    (total limit : Value) {command : List String} (present : command ≠ []) :
    Ensures (fun result after => Ended process command listener total limit (.ok result) after)
      (fun failure after => Ended process command listener total limit (.error failure) after)
      ((run process command listener total limit).run {}) := by
  obtain ⟨spawned, spawning⟩ := exists_withProgress? present
  have begun : Underway process process.output (begunTrace command spawned) :=
    ⟨rfl, List.forall_mem_nil _, List.Subset.refl _⟩
  rw [run_of_started spawning]
  refine ensures_bind (ensures_closing command (ensures_follow begun)) ?_
  rintro _ middle ⟨waited, outputClosed, errorsClosed⟩
  exact ensures_conclude command waited outputClosed errorsClosed

/-- Every run of a process that was started ends in one of the four ways and closes both streams;
a wait for the end of the process has returned by then unless nothing was asked of it. -/
theorem ending_of_run (process : EncoderProcess) (listener : Option ProgressListener)
    (total limit : Value) {command : List String} (present : command ≠ []) :
    let ended := traced (run process command listener total limit)
    Ended process command listener total limit ended.1 ended.2 ∧
      (process.Reaped ended.2.requests ↔ ended.2.requests ≠ []) := by
  have either := ensures_run process listener total limit present
  unfold traced
  dsimp only
  cases ran : (run process command listener total limit).run {} with
  | ok result after =>
    have ended := either.of_ok ran
    exact ⟨ended, ended.ending.reaped_iff⟩
  | error failure after =>
    have ended := either.of_error ran
    exact ⟨ended, ended.ending.reaped_iff⟩

/-- A process that takes longer than it is allowed to and ignores the request to end. -/
def lateProcess : EncoderProcess where
  output := ["frame=1", "progress=continue"]
  stubborn := true
  clock reading := .int (10 * reading)

/-- It is waited for once it has been ended by force. -/
theorem ending_lateProcess :
    lateProcess.Reaped
      (traced (run lateProcess ["ffmpeg", "out.mp4"] none .null (.int 5))).2.requests :=
  (ending_of_run lateProcess none .null (.int 5) (by decide)).2.mpr (by decide +kernel)

/-- A process that says how far it has come, and ends well. -/
def promptProcess : EncoderProcess where
  output := ["frame=1", "out_time=00:00:01", "progress=end"]
  clock _ := .int 0

/-- A total below zero breaks the run off; the process is left behind. -/
theorem not_reaped_promptProcess :
    let ended := traced
      (run promptProcess ["ffmpeg", "out.mp4"] (some fun _ => .ok ()) (.int (-5)) .null)
    ended.1 = .error .noTotal ∧ ended.2.spawned.isSome = true ∧
      ¬ promptProcess.Reaped ended.2.requests := by
  decide +kernel

end EncoderRun

end Montage
