import Montage.Render
import Montage.Session.Options
import Montage.Session.ProgressLine
import Montage.Session.Question
import Montage.Settings

/-!
# Sessions

A session reads its options and settings, asks for the project and the episode that are not given,
loads the episode, renders it, and saves a copy of its edit list beside the output. Failures that
the user can mend are shown and end the session with the exit code one: an episode that cannot be
loaded, an edit list that cannot be compiled, an encoder that fails. All others end it as they are.
What a session did before its end stays in its trace.
-/

namespace Montage

/-- What a session finds around it. -/
structure Surroundings where
  environment : List (String × String) := []
  /-- The encoder's program on the search path. -/
  found : Option String := none
  process : EncoderProcess
  scripts : ScriptReader := Script.known
  settings : SettingsReader := SettingsSources.layered

/-- What is told beside the output: log records and lines for the user. -/
inductive Notice where
  | logged (record : LogRecord)
  | shown (text : String)
deriving DecidableEq

/-- What a session has done so far. -/
structure SessionTrace where
  tree : FileTree := {}
  /-- What of the input is still to be read. -/
  input : List Char := []
  output : String := ""
  notices : List Notice := []
  /-- The file of the log and the rank that its records reach; none before the log is open. -/
  log : Option (Path × Nat) := none
  encoder : Option EncoderTrace := none
  /-- Where the copy of the edit list was to be written. -/
  copy : Option Path := none
deriving DecidableEq

/-- A step of a session, which may fail. -/
abbrev Session := EStateM Failure SessionTrace

namespace SessionTrace

/-- The records of the log. -/
def records (trace : SessionTrace) : List LogRecord :=
  let rank := (trace.log.map (·.2)).getD 0
  LogRecord.atLeast rank <| trace.notices.filterMap fun notice =>
    match notice with
    | .logged record => some record
    | .shown _ => none

end SessionTrace

namespace Session

def print (text : String) : Session Unit :=
  modify fun trace => { trace with output := trace.output ++ text }

def notice (notice : Notice) : Session Unit :=
  modify fun trace => { trace with notices := trace.notices ++ [notice] }

def log (record : LogRecord) : Session Unit :=
  notice (.logged record)

/-- Reports a failure in the log and to the user, and gives the exit code of a failed session. -/
def giveUp (what shown : String) (failure : Failure) : Session Int := do
  log ⟨.error, "main", what ++ ": " ++ failure.message⟩
  notice (.shown (shown ++ " > " ++ failure.message ++ "\n"))
  return 1

/-- Asks a question. The input must go on for the answer. -/
def ask (question : Question) : Session String := do
  if question.options.isEmpty then
    throw (.session (.choice (.noOptions question.prompt)))
  print question.text
  match Question.line? (← get).input with
  | none => throw (.session (.choice .noAnswer))
  | some (answer, input) =>
    modify fun trace => { trace with input }
    liftM (question.select answer)

/-- What was given, or the answer to a question if that is nothing. -/
def givenOr (given : Option OptionValue) (heading : String) (question : Session Question) :
    Session String := do
  match given.bind OptionValue.text? with
  | some value => if value = "" then asked else return value
  | none => asked
where
  asked : Session String := do
    print (heading ++ "\n")
    ask (← question)

/-- Opens the log, which makes its file, and then looks for the rank of its level. -/
def openLog (settings : Settings) : Session Unit := do
  let path := (← get).tree.absolute (.ofString settings.logFile)
  let tree ← liftM (Catalogue.onPath path ((← get).tree.touch path))
  modify fun trace => { trace with tree, log := some (path, 0) }
  let rank ← liftM ((LogLevel.rankNamed settings.logLevel).mapError Failure.defect)
  modify fun trace => { trace with log := some (path, rank) }

/-- The settings that the options override. -/
def overrides (options : Options) : SettingsLayer :=
  [("projects_directory", options.projectsDirectory), ("transition", options.transition),
    ("vcodec", options.videoCodec), ("log_level", options.logLevel)].filterMap fun (name, value) =>
      value.map fun
        | .text text => (name, .text text)
        | .nothing => (name, .list [])

/-- The settings of a session. -/
def settings (surroundings : Surroundings) (options : Options) : Session Settings := do
  match options.config with
  | .nothing => throw (.defect .wrongKind)
  | .text config =>
    let tree := (← get).tree
    let sources ← liftM (SettingsSources.read tree surroundings.environment (.ofString config)
      (overrides options))
    let (told, outcome) := surroundings.settings tree sources
    for text in told do notice (.shown text)
    liftM outcome

/-- Whether a failure to load an episode is one that the user can mend. -/
def isLoadFailure (failure : Failure) : Bool :=
  failure.isOfFiles || failure.isOfValue || failure.isOfMember

/-- What a session settles before it loads anything. -/
structure Choice where
  settings : Settings
  project : String
  episode : String

/-- The directory of all projects. -/
def Choice.root (choice : Choice) : Path :=
  .ofString choice.settings.projectsDirectory

/-- Reads the settings, opens the log, and asks for the names that are not given. -/
def choose (surroundings : Surroundings) (options : Options) : Session Choice := do
  let settings ← settings surroundings options
  openLog settings
  let root := Path.ofString settings.projectsDirectory
  let project ← givenOr options.project "Projetos disponíveis:" do
    let projects ← liftM (Catalogue.projects (← get).tree root)
    return ⟨"Escolha o diretório do projeto", projects, true⟩
  let episode ← givenOr options.episode "Episódios disponíveis:" do
    let episodes ← liftM (Catalogue.episodes (← get).tree root project)
    return ⟨"Informe o id do episódio", episodes, false⟩
  return ⟨settings, project, episode⟩

/-- Loads an episode, and the change that its project's script makes. -/
def load (surroundings : Surroundings) (options : Options) (choice : Choice) :
    Session (Project × Option ProjectTransform) := do
  let tree := (← get).tree
  let loaded ← liftM (Catalogue.load tree choice.root choice.project choice.episode)
  log (Catalogue.loadReport choice.project choice.episode loaded)
  if options.withoutScript then return (loaded, none)
  let transform ← liftM
    (Catalogue.transform? surroundings.scripts tree choice.root choice.project)
  if transform.isSome then log (Catalogue.scriptReport choice.root choice.project)
  return (loaded, transform)

/-- What the user sees of a rendering. -/
def eventText : RenderEvent → Except Failure String
  | .started command => .ok ("Exportando vídeo > \n" ++ command ++ "\n")
  | .progress report => (ProgressLine.ofReport report).mapError .defect

/-- Shows the user what a rendering tells; it fails where that has no text. -/
def listener : RenderListener := fun event =>
  (eventText event).map fun _ => ()

/-- Renders a request. What the user sees is printed as far as the rendering comes. -/
def render (surroundings : Surroundings) (request : RenderRequest) :
    Session (Except Failure RenderResult) := do
  let (outcome, trace) := Rendering.traced
    (Rendering.render (Catalogue.existence (← get).tree) surroundings.process listener request)
  for record in trace.log do log record
  for event in trace.events do
    if let .ok text := eventText event then print text
  modify fun session => { session with encoder := trace.encoder }
  return outcome

/-- Saves the copy of a project beside the output. -/
def saveCopy (project : Project) (output : Path) : Session Unit := do
  match output.withExtension? ".json" with
  | none => throw (.defect .badValue)
  | some path =>
    modify fun trace => { trace with copy := some path }
    let (outcome, tree) := Catalogue.saveCopy (← get).tree project path
    modify fun trace => { trace with tree }
    liftM outcome
    log (Catalogue.copyReport path)

/-- The request for a loaded project. -/
def request (surroundings : Surroundings) (options : Options) (settings : Settings)
    (tree : FileTree) (project : Project) (transform : Option ProjectTransform) : RenderRequest := {
  project, transform
  output :=
    match options.output.bind OptionValue.text? with
    | some output =>
      if output = "" then project.base.join (.ofString settings.outputName) else .ofString output
    | none => project.base.join (.ofString settings.outputName)
  settings := settings.encoder tree surroundings.found
  transition := .ofName settings.transition
  limit := (settings.timeLimit.map Value.real).getD .null
  dryRun := options.dryRun }

/-- Renders a loaded project, and gives the exit code. -/
def finish (surroundings : Surroundings) (options : Options) (request : RenderRequest) :
    Session Int := do
  match ← render surroundings request with
  | .error (.edit cause) => giveUp "Compilação falhou" "ERRO" (.edit cause)
  | .error (.encoder cause) => giveUp "Renderização falhou" "\nErro" (.encoder cause)
  | .error failure => throw failure
  | .ok result =>
    if result.executed then
      unless options.withoutCopy do saveCopy request.project request.output
      print ("\nRenderização completa > Salvo em " ++ result.output.toString ++ "\n")
    else print (EncoderCommand.line result.command ++ "\n")
    return 0

/-- A session with its options, which gives the exit code. -/
def run (surroundings : Surroundings) (options : Options) : Session Int := do
  let choice ← choose surroundings options
  match ← attempt (load surroundings options choice) with
  | .ok (loaded, transform) =>
    finish surroundings options
      (request surroundings options choice.settings (← get).tree loaded transform)
  | .error failure =>
    if isLoadFailure failure then giveUp "Falha ao carregar o projeto" "ERRO" failure
    else throw failure
where
  /-- The outcome of a step; what it did stays when it fails. -/
  attempt {α : Type} (step : Session α) : Session (Except Failure α) := fun trace =>
    match step trace with
    | .ok value trace => .ok (.ok value) trace
    | .error failure trace => .ok (.error failure) trace

/-- A whole session: its outcome, and what it did in a file tree with some input. -/
def start (surroundings : Surroundings) (tree : FileTree) (input : String)
    (arguments : List String) : Except Failure Int × SessionTrace :=
  let initial : SessionTrace := { tree, input := input.toList }
  match Options.read arguments with
  | .error cause => (.error (.session (.options cause)), initial)
  | .ok options =>
    match run surroundings options initial with
    | .ok code trace => (.ok code, trace)
    | .error failure trace => (.error failure, trace)

end Session

end Montage
