import Montage.Proofs.Assembly
import Montage.Proofs.MeasuredProgress
import Montage.Proofs.RunEndings
import Montage.Render

/-!
# The course of a rendering

A request is prepared first: its project is compiled and its command is built. A request that
cannot be prepared and a dry run stop there, with nothing told and nothing run. In all other cases
the listener hears of the command, and then the encoder runs it (`Rendering.Course`). Main
statements: `course_of_render`, that every rendering takes one of these courses, and
`conducted_of_render`, what a listener that never fails hears of it.
-/

namespace Montage

namespace EncoderRun

theorem withProgress?_of_getLast? {command : List String} {last : String}
    (ends : command.getLast? = some last) :
    withProgress? command = some (command.dropLast ++ progressOptions ++ [last]) := by
  rw [withProgress?, ends]
  rfl

end EncoderRun

namespace EncoderCommand

variable {output : Path} {settings : EncoderSettings}

theorem getLast?_of_closing {tokens : List String} (closed : closing settings output = .ok tokens) :
    tokens.getLast? = some output.toString := by
  obtain ⟨quality, _, closed⟩ := except_bind_eq_ok_iff.mp closed
  obtain ⟨frameRate, _, closed⟩ := except_bind_eq_ok_iff.mp closed
  obtain rfl := except_pure_eq_ok_iff.mp closed
  rfl

/-- The output path is the last part of every command. -/
theorem getLast?_of_build {graph : Graph} {command : List String}
    (built : build graph output settings = .ok command) :
    command.getLast? = some output.toString := by
  obtain ⟨windows, _, built⟩ := except_bind_eq_ok_iff.mp built
  obtain ⟨filters, _, built⟩ := except_bind_eq_ok_iff.mp built
  obtain ⟨labels, _, built⟩ := except_bind_eq_ok_iff.mp built
  obtain ⟨tokens, closed, built⟩ := except_bind_eq_ok_iff.mp built
  obtain rfl := except_pure_eq_ok_iff.mp built
  rw [List.getLast?_append, getLast?_of_closing (liftM_defect_eq_ok_iff.mp closed)]
  rfl

end EncoderCommand

/-- What is found to be more than nothing does not count as absent. -/
theorem Value.isPresent_of_above {value : Value} (above : value.le (.int 0) = .ok false) :
    value.isPresent = true := by
  cases value with
  | bool b =>
    cases b with
    | true => rfl
    | false => cases above
  | int n =>
    rw [le_int] at above
    have positive := of_decide_eq_false (Except.ok.inj above)
    exact bne_iff_ne.mpr fun zero => positive (Int.le_of_eq zero)
  | real x =>
    rcases real_le_zero_eq_false_iff.mp above with rfl | rfl | ⟨units, exact, rfl, positive⟩
    · rfl
    · rfl
    · simp [isPresent, Binary64.isZero, Nat.ne_of_gt positive]
  | null | text _ | list _ | object _ => cases above

/-- A compiled graph has a total that counts. -/
theorem Compilation.isPresent_total {existence : ExistenceCheck} {transition : Transition}
    {transform : Option ProjectTransform} {project : Project} {graph : Graph}
    (compiled : (run (compile existence transition transform project)).1 = .ok graph) :
    graph.total.isPresent = true := by
  unfold run at compiled
  split at compiled
  · next ran =>
    cases compiled
    obtain ⟨_, _, built⟩ := built_of_compile ran
    exact Value.isPresent_of_above (checkTotal_eq_ok_iff.mp built.total).2
  · cases compiled

namespace Rendering

open EncoderRun

/-- What a request comes to before anything is done for it: its graph and its command. -/
def prepared (existence : ExistenceCheck) (request : RenderRequest) :
    Except Failure (Graph × List String) := do
  let graph ← (Compilation.run (Compilation.compile existence request.transition request.transform
    request.project)).1
  let command ← EncoderCommand.build graph request.output request.settings
  return (graph, command)

/-- The run of the encoder for a prepared request. -/
def encoding (process : EncoderProcess) (listener : Option RenderListener)
    (request : RenderRequest) (graph : Graph) (command : List String) :
    Except Failure EncoderResult × EncoderTrace :=
  EncoderRun.traced (EncoderRun.run process command
    (listener.map fun listen news => listen (.progress news)) graph.total request.limit)

/-- What the listener hears first, if there is one. -/
def announcement (listener : Option RenderListener) (command : List String) : List RenderEvent :=
  (listener.map fun _ => RenderEvent.started (" ".intercalate command)).toList

/-- The courses of a rendering: how it ends, what the listener hears of, and what the encoder
does. -/
inductive Course (existence : ExistenceCheck) (process : EncoderProcess)
    (listener : Option RenderListener) (request : RenderRequest) :
    Except Failure RenderResult → List RenderEvent → Option EncoderTrace → Prop
  | unprepared {failure : Failure} : prepared existence request = .error failure →
      Course existence process listener request (.error failure) [] none
  | shown {graph : Graph} {command : List String} :
      prepared existence request = .ok (graph, command) → request.dryRun = true →
      Course existence process listener request (.ok ⟨request.output, command, graph, false⟩) []
        none
  /-- The listener fails on the command. -/
  | refused {graph : Graph} {command : List String} {listen : RenderListener}
      {failure : Failure} :
      prepared existence request = .ok (graph, command) → request.dryRun = false →
      listener = some listen → listen (.started (" ".intercalate command)) = .error failure →
      Course existence process listener request (.error failure)
        [.started (" ".intercalate command)] none
  | run {graph : Graph} {command : List String} :
      prepared existence request = .ok (graph, command) → request.dryRun = false →
      Course existence process listener request
        ((encoding process listener request graph command).1.map fun _ =>
          ⟨request.output, command, graph, true⟩)
        (announcement listener command ++
          (encoding process listener request graph command).2.reports.map .progress)
        (some (encoding process listener request graph command).2)

variable {existence : ExistenceCheck} {process : EncoderProcess}
  {listener : Option RenderListener} {request : RenderRequest} {trace : RenderTrace}
  {events : List RenderEvent} {encoder : Option EncoderTrace}

/-! ## Steps -/

/-- What the listener has heard of, and what the encoder has done, by some point. -/
structure Told (events : List RenderEvent) (encoder : Option EncoderTrace) (trace : RenderTrace) :
    Prop where
  events : trace.events = events
  encoder : trace.encoder = encoder

/-- Compiling a project tells nothing. -/
theorem ensures_compile (existence : ExistenceCheck) (request : RenderRequest)
    (told : Told events encoder trace) :
    let compiled := Compilation.run
      (Compilation.compile existence request.transition request.transform request.project)
    Ensures (fun graph after => compiled.1 = .ok graph ∧ Told events encoder after)
      (fun failure after => compiled.1 = .error failure ∧ Told events encoder after)
      ((compile existence request).run trace) := by
  have ran : (compile existence request).run trace = compile existence request trace := rfl
  dsimp only
  rw [ran]
  unfold compile
  generalize Compilation.run (Compilation.compile existence request.transition request.transform
    request.project) = compiled
  obtain ⟨outcome, draft⟩ := compiled
  cases outcome with
  | ok graph => exact .ok ⟨rfl, told.events, told.encoder⟩
  | error failure => exact .error ⟨rfl, told.events, told.encoder⟩

/-- Building a command tells nothing. -/
theorem ensures_command (graph : Graph) (request : RenderRequest)
    (told : Told events encoder trace) :
    Ensures
      (fun command after => EncoderCommand.build graph request.output request.settings =
        .ok command ∧ Told events encoder after)
      (fun failure after => EncoderCommand.build graph request.output request.settings =
        .error failure ∧ Told events encoder after)
      ((command graph request).run trace) := by
  refine ensures_modify_bind (ensures_lift_bind ?_ ?_)
  · intro command built
    exact ensures_modify_bind (.ok ⟨built, told.events, told.encoder⟩)
  · intro failure failed
    exact ⟨failed, told.events, told.encoder⟩

/-- The listener hears of the command, and may fail on it. -/
theorem ensures_tell (listener : Option RenderListener) (command : List String)
    (told : Told [] none trace) :
    Ensures (fun _ after => Told (announcement listener command) none after)
      (fun failure after => ∃ listen, listener = some listen ∧
        listen (.started (" ".intercalate command)) = .error failure ∧
        Told [.started (" ".intercalate command)] none after)
      ((tell listener (.started (" ".intercalate command))).run trace) := by
  cases listener with
  | none => exact .ok told
  | some listen =>
    have heard : trace.events ++ [RenderEvent.started (" ".intercalate command)] =
        [.started (" ".intercalate command)] := by rw [told.events, List.nil_append]
    exact ensures_modify_bind (ensures_lift (fun _ _ => ⟨heard, told.encoder⟩)
      fun _ failed => ⟨listen, rfl, failed, heard, told.encoder⟩)

/-- The encoder runs, and the listener hears of what it reports. -/
theorem ensures_execute (process : EncoderProcess) (listener : Option RenderListener)
    (request : RenderRequest) (graph : Graph) (command : List String)
    (told : Told events none trace) :
    let run := encoding process listener request graph command
    Ensures
      (fun result after => run.1 = .ok result ∧
        Told (events ++ run.2.reports.map .progress) (some run.2) after)
      (fun failure after => run.1 = .error failure ∧
        Told (events ++ run.2.reports.map .progress) (some run.2) after)
      ((execute process command listener graph.total request.limit).run trace) := by
  have ran : (execute process command listener graph.total request.limit).run trace =
    execute process command listener graph.total request.limit trace := rfl
  dsimp only
  rw [ran]
  unfold execute encoding
  rw [← told.events]
  generalize EncoderRun.traced _ = run
  obtain ⟨outcome, ended⟩ := run
  cases outcome with
  | ok result => exact .ok ⟨rfl, rfl, rfl⟩
  | error failure => exact .error ⟨rfl, rfl, rfl⟩

/-! ## The whole rendering -/

theorem ensures_render (existence : ExistenceCheck) (process : EncoderProcess)
    (listener : Option RenderListener) (request : RenderRequest) :
    Ensures
      (fun result after =>
        Course existence process listener request (.ok result) after.events after.encoder)
      (fun failure after =>
        Course existence process listener request (.error failure) after.events after.encoder)
      ((render existence process listener request).run {}) := by
  have begun : Told [] none
      { ({} : RenderTrace) with log := [⟨.info, "RenderService",
        "Iniciando renderização: saída=" ++ request.output.toString⟩] } := ⟨rfl, rfl⟩
  have stopped {failure : Failure} {after : RenderTrace}
      (failed : prepared existence request = .error failure) (told : Told [] none after) :
      Course existence process listener request (.error failure) after.events after.encoder := by
    rw [told.events, told.encoder]
    exact .unprepared failed
  refine ensures_modify_bind (ensures_bind ((ensures_compile existence request begun).imp
    (fun _ _ both => both) ?_) ?_)
  · rintro failure after ⟨failed, told⟩
    exact stopped (except_bind_eq_error_iff.mpr (.inl failed)) told
  rintro graph _ ⟨compiled, told⟩
  refine ensures_bind ((ensures_command graph request told).imp (fun _ _ both => both) ?_) ?_
  · rintro failure after ⟨failed, told⟩
    refine stopped (except_bind_eq_error_iff.mpr (.inr ⟨graph, compiled, ?_⟩)) told
    exact except_bind_pure_eq_error_iff.mpr failed
  rintro command _ ⟨built, told⟩
  have ready : prepared existence request = .ok (graph, command) :=
    except_bind_eq_ok_iff.mpr ⟨graph, compiled, except_bind_eq_ok_iff.mpr ⟨command, built, rfl⟩⟩
  cases dry : request.dryRun with
  | true =>
    rw [if_pos rfl]
    refine ensures_modify_bind (.ok ?_)
    dsimp only
    rw [told.events, told.encoder]
    exact .shown ready dry
  | false =>
    rw [if_neg Bool.false_ne_true]
    refine ensures_bind ((ensures_tell listener command told).imp (fun _ _ both => both) ?_) ?_
    · rintro failure after ⟨listen, same, failed, told⟩
      rw [told.events, told.encoder]
      exact .refused ready dry same failed
    rintro _ _ told
    have course : Course existence process listener request _ _ _ := .run ready dry
    refine ensures_bind ((ensures_execute process listener request graph command told).imp
      (fun _ _ both => both) ?_) ?_
    · rintro failure after ⟨failed, told⟩
      rw [failed] at course
      rw [told.events, told.encoder]
      exact course
    · rintro result after ⟨returned, told⟩
      rw [returned] at course
      refine ensures_modify_bind (.ok ?_)
      dsimp only
      rw [told.events, told.encoder]
      exact course

/-- Every rendering takes one of the courses. -/
theorem course_of_render (existence : ExistenceCheck) (process : EncoderProcess)
    (listener : Option RenderListener) (request : RenderRequest) :
    let ended := traced (render existence process listener request)
    Course existence process listener request ended.1 ended.2.events ended.2.encoder := by
  have either := ensures_render existence process listener request
  unfold traced
  dsimp only
  cases ran : (render existence process listener request).run {} with
  | ok result after => exact either.of_ok ran
  | error failure after => exact either.of_error ran

/-- The output path ends a prepared command, and the total of its graph counts. -/
theorem of_prepared {graph : Graph} {command : List String}
    (ready : prepared existence request = .ok (graph, command)) :
    command.getLast? = some request.output.toString ∧ graph.total.isPresent = true := by
  obtain ⟨_, compiled, ready⟩ := except_bind_eq_ok_iff.mp ready
  obtain ⟨_, built, ready⟩ := except_bind_eq_ok_iff.mp ready
  obtain ⟨rfl, rfl⟩ := Prod.mk.inj (except_pure_eq_ok_iff.mp ready)
  exact ⟨EncoderCommand.getLast?_of_build built, Compilation.isPresent_total compiled⟩

/-- A rendering that does nothing but fail or give a result. -/
structure Idle (outcome : Except Failure RenderResult)
    (ended : Except Failure RenderResult × RenderTrace) : Prop where
  outcome : ended.1 = outcome
  events : ended.2.events = []
  encoder : ended.2.encoder = none

/-- A rendering that carries out its command: it is announced once and before everything else, it
is run with the progress options before its last part, and the rendering succeeds exactly if that
run does. All progress is measured by the total of the graph. -/
structure CarriedOut (process : EncoderProcess) (listener : Option RenderListener)
    (request : RenderRequest) (graph : Graph) (command : List String)
    (ended : Except Failure RenderResult × RenderTrace) : Prop where
  encoder : ended.2.encoder = some (encoding process listener request graph command).2
  spawned : (encoding process listener request graph command).2.spawned =
    some (command.dropLast ++ ["-progress", "pipe:1", "-nostats"] ++ [request.output.toString])
  last : command.getLast? = some request.output.toString
  events : ended.2.events = announcement listener command ++
    (encoding process listener request graph command).2.reports.map .progress
  outcome : ended.1 = (encoding process listener request graph command).1.map fun _ =>
    ⟨request.output, command, graph, true⟩
  measured : ∀ news ∈ (encoding process listener request graph command).2.reports,
    news.Measured graph.total

theorem idle_of_course_unprepared {failure : Failure}
    {ended : Except Failure RenderResult × RenderTrace}
    (course : Course existence process listener request ended.1 ended.2.events ended.2.encoder)
    (failed : prepared existence request = .error failure) : Idle (.error failure) ended := by
  generalize outcome : ended.1 = result, events : ended.2.events = told,
    encoder : ended.2.encoder = run at course
  cases course with
  | unprepared same =>
    cases failed.symm.trans same
    exact ⟨outcome, events, encoder⟩
  | shown ready _ => cases failed.symm.trans ready
  | refused ready _ _ _ => cases failed.symm.trans ready
  | run ready _ => cases failed.symm.trans ready

theorem idle_of_course_dry {graph : Graph} {command : List String}
    {ended : Except Failure RenderResult × RenderTrace}
    (course : Course existence process listener request ended.1 ended.2.events ended.2.encoder)
    (ready : prepared existence request = .ok (graph, command)) (dry : request.dryRun = true) :
    Idle (.ok ⟨request.output, command, graph, false⟩) ended := by
  generalize outcome : ended.1 = result, events : ended.2.events = told,
    encoder : ended.2.encoder = run at course
  cases course with
  | unprepared failed => cases ready.symm.trans failed
  | shown same _ =>
    cases ready.symm.trans same
    exact ⟨outcome, events, encoder⟩
  | refused _ real _ _ => cases dry.symm.trans real
  | run _ real => cases dry.symm.trans real

theorem carriedOut_of_course {graph : Graph} {command : List String}
    {ended : Except Failure RenderResult × RenderTrace}
    (accepts : ∀ listen, listener = some listen →
      listen (.started (" ".intercalate command)) = .ok ())
    (course : Course existence process listener request ended.1 ended.2.events ended.2.encoder)
    (ready : prepared existence request = .ok (graph, command)) (real : request.dryRun = false) :
    CarriedOut process listener request graph command ended := by
  obtain ⟨last, known⟩ := of_prepared ready
  generalize outcome : ended.1 = result, events : ended.2.events = told,
    encoder : ended.2.encoder = run at course
  cases course with
  | unprepared failed => cases ready.symm.trans failed
  | shown _ dry => cases real.symm.trans dry
  | refused same _ given failed =>
    cases ready.symm.trans same
    cases (accepts _ given).symm.trans failed
  | run same _ =>
    cases ready.symm.trans same
    have telling := telling_of_run process
      (listener.map fun listen news => listen (.progress news)) request.limit
      (fun _ _ => ProgressNews.measured_of_ofBlock known) (withProgress?_of_getLast? last)
    exact ⟨encoder, telling.spawned, last, events, outcome, telling.proper⟩

/-- A process that was run to its end, without the rendering being broken off, ended well. -/
theorem code_of_encoding {graph : Graph} {command : List String} {result : EncoderResult}
    (ready : prepared existence request = .ok (graph, command))
    (returned : (encoding process listener request graph command).1 = .ok result) :
    process.code = 0 := by
  obtain ⟨last, -⟩ := of_prepared ready
  have present : command ≠ [] := by
    rintro rfl
    cases last
  have either := ensures_run process (listener.map fun listen news => listen (.progress news))
    graph.total request.limit present
  unfold encoding EncoderRun.traced at returned
  split at returned
  · next ran =>
    cases returned
    have ending := (either.of_ok ran).ending
    generalize EncoderTrace.requests _ = requests at ending
    cases ending with
    | returned succeeds => exact succeeds
  · cases returned

/-- A request that cannot be prepared fails in the same way, and a dry run gives the command; in
both cases nothing is told and nothing is run. Any other request carries out the command that a dry
run of it gives. -/
theorem conducted_of_render (existence : ExistenceCheck) (process : EncoderProcess)
    (listener : Option RenderListener) (request : RenderRequest)
    (accepts : ∀ listen, listener = some listen → ∀ event, listen event = .ok ()) :
    let ended := traced (render existence process listener request)
    let tried := traced (render existence process listener { request with dryRun := true })
    (∀ failure, prepared existence request = .error failure →
      Idle (.error failure) tried ∧ Idle (.error failure) ended) ∧
    ∀ graph command, prepared existence request = .ok (graph, command) →
      Idle (.ok ⟨request.output, command, graph, false⟩) tried ∧
      (request.dryRun = true → ended = tried) ∧
      (request.dryRun = false → CarriedOut process listener request graph command ended) := by
  intro ended tried
  have course := course_of_render existence process listener request
  have trial := course_of_render existence process listener { request with dryRun := true }
  constructor
  · intro failure failed
    exact ⟨idle_of_course_unprepared trial failed, idle_of_course_unprepared course failed⟩
  · intro graph command ready
    have tryReady : prepared existence { request with dryRun := true } = .ok (graph, command) :=
      ready
    have shown := idle_of_course_dry trial tryReady rfl
    refine ⟨shown, ?_, carriedOut_of_course (fun listen same => accepts listen same _) course ready⟩
    intro dry
    have same : { request with dryRun := true } = request := by rw [← dry]
    exact congrArg (fun request => traced (render existence process listener request)) same.symm

/-- A request with two cuts that overlap by one second. -/
def sampleRequest : RenderRequest where
  project := Compilation.sampleProject
  output := ⟨0, ["out.mp4"]⟩

/-- The sample is prepared, announced and carried out with the progress options. -/
theorem conducted_sampleRequest : ∃ graph command,
    prepared (fun _ _ => .ok true) sampleRequest = .ok (graph, command) ∧
      CarriedOut EncoderRun.sampleProcess (some fun _ => .ok ()) sampleRequest graph command
        (traced (render (fun _ _ => .ok true) EncoderRun.sampleProcess (some fun _ => .ok ())
          sampleRequest)) := by
  have succeeds : (prepared (fun _ _ => .ok true) sampleRequest).isOk = true := by decide +kernel
  cases ready : prepared (fun _ _ => .ok true) sampleRequest with
  | error failure =>
    rw [ready] at succeeds
    cases succeeds
  | ok both =>
    obtain ⟨graph, command⟩ := both
    have accepts : ∀ listen, (some fun _ => .ok () : Option RenderListener) = some listen →
        ∀ event, listen event = .ok () := by
      intro listen same event
      cases same
      rfl
    exact ⟨graph, command, rfl, ((conducted_of_render (fun _ _ => .ok true)
      EncoderRun.sampleProcess (some fun _ => .ok ()) sampleRequest accepts).2 graph command
      ready).2.2 rfl⟩

end Rendering

end Montage
