import Montage.Proofs.RenderCourse
import Montage.Session

/-!
# The course of a session

A session makes its choices first, which does nothing but open the log. It loads the episode and
the change of its script, renders it, and saves the copy. A session that goes on to the end takes
one of the courses of `Session.Course`, which tells of each what the session did to the files, what
the encoder did, and how it ended. Main statement: `course_of_run`.
-/

namespace Montage

theorem Catalogue.onPath_eq_ok_iff {α : Type} {path : Path} {step : Except FileFault α} {value : α} :
    onPath path step = .ok value ↔ step = .ok value := by
  cases step with
  | ok found => exact Iff.of_eq (by simp [onPath, Except.mapError])
  | error fault => exact iff_of_false nofun nofun

/-- What a session has done besides talking to the user. -/
structure SessionDeeds where
  tree : FileTree
  log : Option (Path × Nat)
  encoder : Option EncoderTrace
  copy : Option Path

def SessionTrace.deeds (trace : SessionTrace) : SessionDeeds :=
  ⟨trace.tree, trace.log, trace.encoder, trace.copy⟩

namespace Session

variable {deeds : SessionDeeds} {surroundings : Surroundings} {options : Options}
  {trace : SessionTrace} {tree : FileTree}

/-! ## Talking -/

theorem completes_print (text : String) : Completes (·.deeds = deeds) (print text) :=
  completes_modify fun _ same => same

theorem completes_notice (told : Notice) : Completes (·.deeds = deeds) (notice told) :=
  completes_modify fun _ same => same

theorem completes_log (record : LogRecord) : Completes (·.deeds = deeds) (log record) :=
  completes_notice _

theorem keeps_ask (question : Question) : Keeps (·.deeds = deeds) (ask question) := by
  unfold ask
  refine keeps_refuse ((completes_print _).keeps.bind fun _ => keeps_get.bind fun trace => ?_)
  split
  · exact keeps_throw _
  · refine Keeps.bind (keeps_modify ?_) fun _ => keeps_lift _
    exact fun _ same => same

theorem keeps_givenOr (given : Option OptionValue) (heading : String)
    {question : Session Question} (kept : Keeps (·.deeds = deeds) question) :
    Keeps (·.deeds = deeds) (givenOr given heading question) := by
  have asked : Keeps (·.deeds = deeds) (givenOr.asked heading question) :=
    (completes_print _).keeps.bind fun _ => kept.bind fun _ => keeps_ask _
  unfold givenOr
  split
  · exact keeps_ite asked (keeps_pure _)
  · exact asked

/-- Reading the settings does nothing. -/
theorem keeps_settings (surroundings : Surroundings) (options : Options) :
    Keeps (·.deeds = deeds) (settings surroundings options) := by
  unfold settings
  split
  · exact keeps_throw _
  · refine keeps_get.bind fun trace => (keeps_lift _).bind fun sources => Keeps.bind ?_ fun _ =>
      keeps_lift _
    exact (completes_forIn (fun _ _ => (completes_notice _).bind fun _ => completes_pure _) _).keeps

/-! ## Choices -/

/-- A trace of a session that has done nothing but open its log, whose file is now in the tree. -/
def LogOpen (tree : FileTree) (trace : SessionTrace) : Prop :=
  ∃ path rank opened, tree.touch path = .ok opened ∧
    trace.deeds = ⟨opened, some (path, rank), none, none⟩

theorem LogOpen.fresh (opened : LogOpen tree trace) :
    trace.deeds.encoder = none ∧ trace.deeds.copy = none := by
  obtain ⟨_, _, _, _, same⟩ := opened
  rw [same]
  exact ⟨rfl, rfl⟩

/-- A trace of a session that has done nothing but open its log, if that. -/
def Harmless (tree : FileTree) (trace : SessionTrace) : Prop :=
  trace.deeds = ⟨tree, none, none, none⟩ ∨ LogOpen tree trace

theorem ensures_openLog (settings : Settings) (begun : trace.deeds = ⟨tree, none, none, none⟩) :
    Ensures (fun _ after => LogOpen tree after) (fun _ after => Harmless tree after)
      (EStateM.run (openLog settings) trace) := by
  obtain ⟨rfl, -, encoder, copy⟩ := SessionDeeds.mk.inj begun
  refine ensures_get_bind (ensures_get_bind (ensures_lift_bind ?_ fun _ _ => .inl begun))
  intro opened touched
  rw [Catalogue.onPath_eq_ok_iff] at touched
  have logged (rank : Nat) : SessionDeeds.mk opened
      (some (trace.tree.absolute (.ofString settings.logFile), rank)) trace.encoder trace.copy =
      ⟨opened, some (trace.tree.absolute (.ofString settings.logFile), rank), none, none⟩ := by
    rw [encoder, copy]
  refine ensures_modify_bind (ensures_lift_bind ?_ ?_)
  · intro rank _
    exact .ok ⟨_, rank, opened, touched, logged rank⟩
  · intro _ _
    exact .inr ⟨_, 0, opened, touched, logged 0⟩

/-- A step that only talks leaves the log open. -/
theorem keeps_logOpen {α : Type} {step : Session α}
    (kept : ∀ deeds, Keeps (·.deeds = deeds) step) : Keeps (LogOpen tree) step := by
  rintro before ⟨path, rank, opened, touched, same⟩
  have talked (after : SessionTrace)
      (same : after.deeds = ⟨opened, some (path, rank), none, none⟩) : LogOpen tree after :=
    ⟨path, rank, opened, touched, same⟩
  exact (kept _ before same).imp (fun _ => talked) fun _ => talked

/-- The choices do nothing but open the log, and have opened it if they succeed. -/
theorem ensures_choose (surroundings : Surroundings) (options : Options)
    (begun : trace.deeds = ⟨tree, none, none, none⟩) :
    Ensures (fun _ after => LogOpen tree after) (fun _ after => Harmless tree after)
      (EStateM.run (choose surroundings options) trace) := by
  have named (root : Path) (given other : Option OptionValue) (settings : Settings) :
      Keeps (LogOpen tree) (do
        let project ← givenOr given "Projetos disponíveis:" do
          let projects ← liftM (Catalogue.projects (← get).tree root)
          return ⟨"Escolha o diretório do projeto", projects, true⟩
        let episode ← givenOr other "Episódios disponíveis:" do
          let episodes ← liftM (Catalogue.episodes (← get).tree root project)
          return ⟨"Informe o id do episódio", episodes, false⟩
        return (⟨settings, project, episode⟩ : Choice)) :=
    keeps_logOpen fun _ => (keeps_givenOr _ _ (keeps_get.bind fun _ => (keeps_lift _).bind
      fun _ => keeps_pure _)).bind fun _ => (keeps_givenOr _ _ (keeps_get.bind fun _ =>
        (keeps_lift _).bind fun _ => keeps_pure _)).bind fun _ => keeps_pure _
  refine ensures_bind ((keeps_settings surroundings options trace begun).imp
    (fun _ _ same => same) fun _ _ same => .inl same) ?_
  intro settings before same
  refine ensures_bind (ensures_openLog settings same) ?_
  intro _ before opened
  exact (named _ _ _ settings before opened).imp (fun _ _ reached => reached)
    fun _ _ reached => .inr reached

/-! ## Loading -/

/-- What a session loads from a file tree. -/
def loaded (surroundings : Surroundings) (options : Options) (choice : Choice) (tree : FileTree) :
    Except Failure (Project × Option ProjectTransform) := do
  let project ← Catalogue.load tree choice.root choice.project choice.episode
  if options.withoutScript then return (project, none)
  return (project,
    ← Catalogue.transform? surroundings.scripts tree choice.root choice.project)

theorem loaded_of_load {choice : Choice} {project : Project}
    (read : Catalogue.load tree choice.root choice.project choice.episode = .ok project) :
    loaded surroundings options choice tree =
      if options.withoutScript then .ok (project, none)
      else Catalogue.transform? surroundings.scripts tree choice.root choice.project >>=
        fun transform => pure (project, transform) := by
  rw [loaded, read]
  rfl

/-- Loading only reads. -/
theorem ensures_load (surroundings : Surroundings) (options : Options) (choice : Choice)
    (trace : SessionTrace) :
    Ensures
      (fun both after => loaded surroundings options choice trace.tree = .ok both ∧
        after.deeds = trace.deeds)
      (fun failure after => loaded surroundings options choice trace.tree = .error failure ∧
        after.deeds = trace.deeds)
      (EStateM.run (load surroundings options choice) trace) := by
  refine ensures_get_bind (ensures_lift_bind ?_ ?_)
  · intro project read
    refine (completes_log _).ensures_bind rfl ?_
    intro _ reached same
    cases without : options.withoutScript with
    | true =>
      have given : loaded surroundings options choice trace.tree = .ok (project, none) := by
        rw [loaded_of_load read, if_pos without]
      exact .ok ⟨given, same⟩
    | false =>
      have asked : loaded surroundings options choice trace.tree =
          (Catalogue.transform? surroundings.scripts trace.tree choice.root choice.project >>=
            fun transform => pure (project, transform)) := by
        rw [loaded_of_load read, if_neg (Bool.eq_false_iff.mp without)]
      refine ensures_lift_bind ?_ ?_
      · intro transform given
        have given : loaded surroundings options choice trace.tree = .ok (project, transform) :=
          asked.trans (except_bind_eq_ok_iff.mpr ⟨transform, given, rfl⟩)
        split
        · exact (completes_log _).ensures_bind same fun _ _ same => .ok ⟨given, same⟩
        · exact .ok ⟨given, same⟩
      · intro failure failed
        exact ⟨asked.trans (except_bind_pure_eq_error_iff.mpr failed), same⟩
  · intro failure failed
    exact ⟨except_bind_eq_error_iff.mpr (.inl failed), rfl⟩

/-! ## Rendering -/

/-- The rendering of a request in a session, and what it did. -/
def rendering (surroundings : Surroundings) (tree : FileTree) (request : RenderRequest) :
    Except Failure RenderResult × RenderTrace :=
  Rendering.traced
    (Rendering.render (Catalogue.existence tree) surroundings.process listener request)

theorem ensures_render (surroundings : Surroundings) (request : RenderRequest)
    (same : trace.deeds = deeds) :
    Ensures
      (fun outcome after => outcome = (rendering surroundings deeds.tree request).1 ∧ after.deeds =
        { deeds with encoder := (rendering surroundings deeds.tree request).2.encoder })
      (fun _ _ => False)
      (EStateM.run (render surroundings request) trace) := by
  subst same
  refine ensures_get_bind (Completes.ensures_bind (?_ : Completes (·.deeds = trace.deeds) _) rfl ?_)
  · exact completes_forIn (fun _ _ => (completes_log _).bind fun _ => completes_pure _) _
  intro _ _ same
  refine Completes.ensures_bind (?_ : Completes (·.deeds = trace.deeds) _) same ?_
  · refine completes_forIn (fun event _ => ?_) _
    split
    · exact (completes_print _).bind fun _ => completes_pure _
    · exact completes_pure _
  · intro _ after same
    exact ensures_modify_bind (.ok ⟨rfl, congrArg (fun deeds : SessionDeeds =>
      { deeds with encoder := (rendering surroundings trace.tree request).2.encoder }) same⟩)

theorem ensures_giveUp {done : Int → SessionTrace → Prop} {failed : Failure → SessionTrace → Prop}
    (what shown : String) (failure : Failure) (same : trace.deeds = deeds)
    (rest : ∀ after, after.deeds = deeds → done 1 after) :
    Ensures done failed (EStateM.run (giveUp what shown failure) trace) :=
  (completes_log _).ensures_bind same fun _ _ same =>
    (completes_notice _).ensures_bind same fun _ after same => .ok (rest after same)

/-! ## The copy -/

/-- The copy is written where the output's name has another extension; without a name nothing is
done. -/
theorem ensures_saveCopy (project : Project) (output : Path) (same : trace.deeds = deeds) :
    Ensures
      (fun _ after => ∃ path, output.withExtension? ".json" = some path ∧
        (Catalogue.saveCopy deeds.tree project path).1 = .ok () ∧ after.deeds =
          { deeds with tree := (Catalogue.saveCopy deeds.tree project path).2, copy := some path })
      (fun failure after =>
        (output.withExtension? ".json" = none ∧ failure = .defect .badValue ∧
          after.deeds = deeds) ∨
        ∃ path, output.withExtension? ".json" = some path ∧
          (Catalogue.saveCopy deeds.tree project path).1 = .error failure ∧ after.deeds =
            { deeds with tree := (Catalogue.saveCopy deeds.tree project path).2, copy := some path })
      (EStateM.run (saveCopy project output) trace) := by
  subst same
  unfold saveCopy
  cases named : output.withExtension? ".json" with
  | none => exact .error (.inl ⟨rfl, rfl, rfl⟩)
  | some path =>
    refine ensures_modify_bind (ensures_get_bind (ensures_modify_bind (ensures_lift_bind ?_ ?_)))
    · intro _ saved
      refine (completes_log _).ensures_bind rfl ?_
      intro _ after same
      exact .ok ⟨path, rfl, saved, same⟩
    · intro failure failed
      exact .inr ⟨path, rfl, failed, rfl⟩

/-! ## The end -/

/-- Whether a failure to render is one that the user is told of. -/
def isRenderFailure : Failure → Bool
  | .edit _ | .encoder _ => true
  | _ => false

/-- The run of the encoder for a request of a session. -/
def encoded (surroundings : Surroundings) (request : RenderRequest) (graph : Graph)
    (command : List String) : Except Failure EncoderResult × EncoderTrace :=
  Rendering.encoding surroundings.process (some listener) request graph command

/-- How a session ends that has loaded an episode, and what it has done by then. -/
inductive Finished (surroundings : Surroundings) (options : Options) (request : RenderRequest)
    (deeds : SessionDeeds) (trace : SessionTrace) : Except Failure Int → Prop
  | unprepared {failure : Failure} :
      Rendering.prepared (Catalogue.existence deeds.tree) request = .error failure →
      trace.deeds = { deeds with encoder := none } →
      Finished surroundings options request deeds trace
        (if isRenderFailure failure then .ok 1 else .error failure)
  /-- The command is shown and not carried out. -/
  | shown {graph : Graph} {command : List String} {printed : String} :
      Rendering.prepared (Catalogue.existence deeds.tree) request = .ok (graph, command) →
      request.dryRun = true →
      trace.output = printed ++ (" ".intercalate command ++ "\n") →
      trace.deeds = { deeds with encoder := none } →
      Finished surroundings options request deeds trace (.ok 0)
  /-- The encoder fails, or the rendering is broken off while it runs. -/
  | unrendered {graph : Graph} {command : List String} {failure : Failure} :
      Rendering.prepared (Catalogue.existence deeds.tree) request = .ok (graph, command) →
      request.dryRun = false → (encoded surroundings request graph command).1 = .error failure →
      trace.deeds =
        { deeds with encoder := some (encoded surroundings request graph command).2 } →
      Finished surroundings options request deeds trace
        (if isRenderFailure failure then .ok 1 else .error failure)
  /-- No copy is wanted. -/
  | uncopied {graph : Graph} {command : List String} {result : EncoderResult} :
      Rendering.prepared (Catalogue.existence deeds.tree) request = .ok (graph, command) →
      request.dryRun = false → (encoded surroundings request graph command).1 = .ok result →
      options.withoutCopy = true →
      trace.deeds =
        { deeds with encoder := some (encoded surroundings request graph command).2 } →
      Finished surroundings options request deeds trace (.ok 0)
  /-- The output has no name for the copy to be called by. -/
  | nameless {graph : Graph} {command : List String} {result : EncoderResult} :
      Rendering.prepared (Catalogue.existence deeds.tree) request = .ok (graph, command) →
      request.dryRun = false → (encoded surroundings request graph command).1 = .ok result →
      options.withoutCopy = false → request.output.withExtension? ".json" = none →
      trace.deeds =
        { deeds with encoder := some (encoded surroundings request graph command).2 } →
      Finished surroundings options request deeds trace (.error (.defect .badValue))
  | copied {graph : Graph} {command : List String} {result : EncoderResult} {path : Path} :
      Rendering.prepared (Catalogue.existence deeds.tree) request = .ok (graph, command) →
      request.dryRun = false → (encoded surroundings request graph command).1 = .ok result →
      options.withoutCopy = false → request.output.withExtension? ".json" = some path →
      trace.deeds = { deeds with
        tree := (Catalogue.saveCopy deeds.tree request.project path).2
        encoder := some (encoded surroundings request graph command).2
        copy := some path } →
      Finished surroundings options request deeds trace
        ((Catalogue.saveCopy deeds.tree request.project path).1.map fun _ => 0)

/-- How a session ends that has made its choices, and what it has done by then. -/
inductive Course (surroundings : Surroundings) (options : Options) (choice : Choice)
    (deeds : SessionDeeds) (trace : SessionTrace) : Except Failure Int → Prop
  | unloaded {failure : Failure} :
      loaded surroundings options choice deeds.tree = .error failure → trace.deeds = deeds →
      Course surroundings options choice deeds trace
        (if isLoadFailure failure then .ok 1 else .error failure)
  | finished {project : Project} {transform : Option ProjectTransform}
      {outcome : Except Failure Int} :
      loaded surroundings options choice deeds.tree = .ok (project, transform) →
      Finished surroundings options
        (request surroundings options choice.settings deeds.tree project transform) deeds trace
        outcome →
      Course surroundings options choice deeds trace outcome

/-- A request of a session is not prepared, only shown, or carried out; the user can be told of every
command. -/
theorem rendering_cases (surroundings : Surroundings) (tree : FileTree) (request : RenderRequest) :
    (∃ failure, Rendering.prepared (Catalogue.existence tree) request = .error failure ∧
      Rendering.Idle (.error failure) (rendering surroundings tree request)) ∨
    ∃ graph command,
      Rendering.prepared (Catalogue.existence tree) request = .ok (graph, command) ∧
      (request.dryRun = true ∧ Rendering.Idle (.ok ⟨request.output, command, graph, false⟩)
          (rendering surroundings tree request) ∨
        request.dryRun = false ∧ Rendering.CarriedOut surroundings.process (some listener) request
          graph command (rendering surroundings tree request)) := by
  have course := Rendering.course_of_render (Catalogue.existence tree) surroundings.process
    (some listener) request
  cases prepared : Rendering.prepared (Catalogue.existence tree) request with
  | error failure =>
    exact .inl ⟨failure, rfl, Rendering.idle_of_course_unprepared course prepared⟩
  | ok both =>
    obtain ⟨graph, command⟩ := both
    refine .inr ⟨graph, command, rfl, ?_⟩
    cases dry : request.dryRun with
    | true => exact .inl ⟨rfl, Rendering.idle_of_course_dry course prepared dry⟩
    | false =>
      refine .inr ⟨rfl, Rendering.carriedOut_of_course ?_ course prepared dry⟩
      intro listen same
      cases same
      rfl

/-- What follows a rendering that was carried out: the copy, unless it is not wanted. -/
theorem ensures_keep {surroundings : Surroundings} {options : Options} {request : RenderRequest}
    {graph : Graph} {command : List String} {result : EncoderResult} {shown : String}
    (ready : Rendering.prepared (Catalogue.existence deeds.tree) request = .ok (graph, command))
    (real : request.dryRun = false)
    (returned : (encoded surroundings request graph command).1 = .ok result)
    (same : trace.deeds =
      { deeds with encoder := some (encoded surroundings request graph command).2 }) :
    Ensures
      (fun code after => Finished surroundings options request deeds after (.ok code))
      (fun failure after => Finished surroundings options request deeds after (.error failure))
      (EStateM.run (do
        unless options.withoutCopy do saveCopy request.project request.output
        print shown
        return 0 : Session Int) trace) := by
  split
  · next unwanted => exact ensures_modify_bind (.ok (.uncopied ready real returned unwanted same))
  · next wanted =>
    have wanted := Bool.eq_false_iff.mpr wanted
    refine ensures_bind ((ensures_saveCopy request.project request.output same).imp
      (fun _ _ saved => saved) ?_) ?_
    · rintro failure after (⟨nameless, rfl, same⟩ | ⟨path, named, failed, same⟩)
      · exact .nameless ready real returned wanted nameless same
      · have ended := Finished.copied ready real returned wanted named same
        rwa [failed] at ended
    · rintro _ after ⟨path, named, saved, same⟩
      have ended {after : SessionTrace} (same : after.deeds = { deeds with
          tree := (Catalogue.saveCopy deeds.tree request.project path).2
          encoder := some (encoded surroundings request graph command).2
          copy := some path }) :
          Finished surroundings options request deeds after (.ok 0) := by
        have ended := Finished.copied ready real returned wanted named same
        rwa [saved] at ended
      exact ensures_modify_bind (.ok (ended same))

theorem ensures_finish (surroundings : Surroundings) (options : Options) (request : RenderRequest)
    (same : trace.deeds = deeds) :
    Ensures
      (fun code after => Finished surroundings options request deeds after (.ok code))
      (fun failure after => Finished surroundings options request deeds after (.error failure))
      (EStateM.run (finish surroundings options request) trace) := by
  refine ensures_bind ((ensures_render surroundings request same).imp (fun _ _ both => both)
    fun _ _ never => never.elim) ?_
  rintro outcome before ⟨rendered, same⟩
  cases outcome with
  | error failure =>
    have ended {after : SessionTrace} (same : after.deeds =
        { deeds with encoder := (rendering surroundings deeds.tree request).2.encoder }) :
        Finished surroundings options request deeds after
          (if isRenderFailure failure then .ok 1 else .error failure) := by
      rcases rendering_cases surroundings deeds.tree request with
        ⟨cause, failed, idle⟩ | ⟨graph, command, ready, ⟨dry, idle⟩ | ⟨real, carried⟩⟩
      · cases rendered.trans idle.outcome
        rw [idle.encoder] at same
        exact .unprepared failed same
      · cases rendered.trans idle.outcome
      · have outcome : .error failure = (encoded surroundings request graph command).1.map _ :=
          rendered.trans carried.outcome
        rw [carried.encoder] at same
        cases broken : (encoded surroundings request graph command).1 with
        | ok result =>
          rw [broken] at outcome
          cases outcome
        | error cause =>
          rw [broken] at outcome
          cases outcome
          exact .unrendered ready real broken same
    cases failure with
    | edit cause => exact ensures_giveUp _ _ _ same fun _ same => ended same
    | encoder cause => exact ensures_giveUp _ _ _ same fun _ same => ended same
    | defect _ | effect _ | store _ | settings _ | variableRules | session _ | noTotal =>
      exact .error (ended same)
  | ok result =>
    rcases rendering_cases surroundings deeds.tree request with
      ⟨cause, failed, idle⟩ | ⟨graph, command, ready, ⟨dry, idle⟩ | ⟨real, carried⟩⟩
    · cases rendered.trans idle.outcome
    · cases rendered.trans idle.outcome
      rw [idle.encoder] at same
      exact ensures_modify_bind (.ok (.shown ready dry rfl same))
    · have outcome : .ok result = (encoded surroundings request graph command).1.map _ :=
        rendered.trans carried.outcome
      rw [carried.encoder] at same
      cases returned : (encoded surroundings request graph command).1 with
      | error cause =>
        rw [returned] at outcome
        cases outcome
      | ok done =>
        rw [returned] at outcome
        cases outcome
        exact ensures_keep ready real returned same

/-! ## The whole session -/

theorem attempt_of_ok {α : Type} {step : Session α} {value : α} {after : SessionTrace}
    (succeeded : EStateM.run step trace = .ok value after) :
    EStateM.run (run.attempt step) trace = .ok (.ok value) after := by
  unfold EStateM.run at succeeded ⊢
  rw [run.attempt, succeeded]

theorem attempt_of_error {α : Type} {step : Session α} {failure : Failure} {after : SessionTrace}
    (broken : EStateM.run step trace = .error failure after) :
    EStateM.run (run.attempt step) trace = .ok (.error failure) after := by
  unfold EStateM.run at broken ⊢
  rw [run.attempt, broken]

/-- An attempt does not fail itself; what follows it sees how the step ended. -/
theorem ensures_attempt_bind {α β : Type} {step : Session α} {next : Except Failure α → Session β}
    {middle : α → SessionTrace → Prop} {broken : Failure → SessionTrace → Prop}
    {done : β → SessionTrace → Prop} {failed : Failure → SessionTrace → Prop}
    (first : Ensures middle broken (EStateM.run step trace))
    (onSuccess : ∀ value state, middle value state →
      Ensures done failed (EStateM.run (next (.ok value)) state))
    (onFailure : ∀ failure state, broken failure state →
      Ensures done failed (EStateM.run (next (.error failure)) state)) :
    Ensures done failed (EStateM.run (run.attempt step >>= next) trace) := by
  refine ensures_bind
    (?_ : Ensures (fun outcome state => Ensures done failed (EStateM.run (next outcome) state)) failed
      (EStateM.run (run.attempt step) trace)) fun _ _ reached => reached
  cases ended : EStateM.run step trace with
  | ok value state =>
    rw [attempt_of_ok ended]
    exact .ok (onSuccess value state (first.of_ok ended))
  | error failure state =>
    rw [attempt_of_error ended]
    exact .ok (onFailure failure state (first.of_error ended))

/-- A session that has made its choices loads the episode, renders it and saves the copy. -/
theorem ensures_run (surroundings : Surroundings) (options : Options) {choice : Choice}
    {opened : SessionTrace}
    (chosen : EStateM.run (choose surroundings options) trace = .ok choice opened) :
    Ensures
      (fun code after => Course surroundings options choice opened.deeds after (.ok code))
      (fun failure after =>
        Course surroundings options choice opened.deeds after (.error failure))
      (EStateM.run (run surroundings options) trace) := by
  unfold run
  rw [EStateM.run_bind, chosen]
  refine ensures_attempt_bind (ensures_load surroundings options choice opened) ?_ ?_
  · rintro ⟨project, transform⟩ before ⟨given, same⟩
    have treeSame : before.tree = opened.tree := congrArg (·.tree) same
    refine ensures_get_bind ?_
    rw [treeSame]
    exact (ensures_finish surroundings options _ same).imp (fun _ _ ended => .finished given ended)
      fun _ _ ended => .finished given ended
  · rintro failure before ⟨failed, same⟩
    have ended {after : SessionTrace} (same : after.deeds = opened.deeds) :
        Course surroundings options choice opened.deeds after
          (if isLoadFailure failure then .ok 1 else .error failure) :=
      .unloaded failed same
    dsimp only
    split
    · next known =>
      rw [if_pos known] at ended
      exact ensures_giveUp _ _ _ same fun _ same => ended same
    · next unknown =>
      rw [if_neg unknown] at ended
      exact .error (ended same)

theorem start_of_ok {tree : FileTree} {input : String} {arguments : List String} {code : Int}
    {after : SessionTrace} (read : Options.read arguments = .ok options)
    (ran : EStateM.run (run surroundings options) { tree, input := input.toList } =
      .ok code after) : start surroundings tree input arguments = (.ok code, after) := by
  unfold EStateM.run at ran
  rw [start, read]
  dsimp only
  rw [ran]

theorem start_of_error {tree : FileTree} {input : String} {arguments : List String}
    {failure : Failure} {after : SessionTrace} (read : Options.read arguments = .ok options)
    (ran : EStateM.run (run surroundings options) { tree, input := input.toList } =
      .error failure after) :
    start surroundings tree input arguments = (.error failure, after) := by
  unfold EStateM.run at ran
  rw [start, read]
  dsimp only
  rw [ran]

/-- What a whole session comes to. A session whose options are not read does nothing; one that does
not make its choices does nothing but open its log; all others take one of the courses. -/
theorem course_of_start (surroundings : Surroundings) (tree : FileTree) (input : String)
    {arguments : List String} {options : Options} (read : Options.read arguments = .ok options) :
    let begun : SessionTrace := { tree, input := input.toList }
    let ended := start surroundings tree input arguments
    match EStateM.run (choose surroundings options) begun with
    | .error failure after => ended = (.error failure, after) ∧ Harmless tree after
    | .ok choice opened => LogOpen tree opened ∧
        Course surroundings options choice opened.deeds ended.2 ended.1 := by
  intro begun ended
  have choosing := ensures_choose surroundings options (rfl : begun.deeds = ⟨tree, none, none, none⟩)
  cases chosen : EStateM.run (choose surroundings options) begun with
  | error failure after =>
    exact ⟨start_of_error read (run_bind_eq_error_iff.mpr (.inl chosen)),
      choosing.of_error chosen⟩
  | ok choice opened =>
    have either := ensures_run surroundings options chosen
    refine ⟨choosing.of_ok chosen, ?_⟩
    dsimp only [ended]
    cases ran : EStateM.run (run surroundings options) begun with
    | ok code trace =>
      rw [start_of_ok read ran]
      exact either.of_ok ran
    | error failure trace =>
      rw [start_of_error read ran]
      exact either.of_error ran

end Session

end Montage
