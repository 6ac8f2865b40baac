import Montage.Compile.Compilation
import Montage.Encoder.Run

/-!
# Rendering

A request is compiled, its command is built, and the encoder runs it. A project with a fault never
reaches the encoder, and neither does a request for a dry run. The listener hears of the start
once, before any progress.
-/

namespace Montage

structure RenderRequest where
  project : Project
  output : Path
  settings : EncoderSettings := {}
  transition : Transition := Transition.plain
  transform : Option ProjectTransform := none
  /-- The seconds that the encoder may take; a value that counts as absent sets no limit. -/
  limit : Value := .null
  dryRun : Bool := false

structure RenderResult where
  output : Path
  command : List String
  graph : Graph
  executed : Bool
deriving DecidableEq

/-- What a listener hears of. -/
inductive RenderEvent where
  | started (command : String)
  | progress (report : ProgressReport)
deriving DecidableEq

abbrev RenderListener := RenderEvent → Except Failure Unit

/-- What was done for a request; it stays when the request fails. -/
structure RenderTrace where
  checked : List (Path × Value) := []
  log : List LogRecord := []
  events : List RenderEvent := []
  encoder : Option EncoderTrace := none
deriving DecidableEq

abbrev Rendering := EStateM Failure RenderTrace

namespace Rendering

def report (level : LogLevel) (reporter text : String) : Rendering Unit :=
  modify fun trace => { trace with log := trace.log ++ [⟨level, reporter, text⟩] }

/-- Compiles a project; what the draft reported and asked for is kept. -/
def compile (existence : ExistenceCheck) (request : RenderRequest) : Rendering Graph := fun trace =>
  let (outcome, draft) := Compilation.run
    (Compilation.compile existence request.transition request.transform request.project)
  let trace := { trace with
    checked := trace.checked ++ draft.checked
    log := trace.log ++ draft.log }
  match outcome with
  | .ok graph => .ok graph trace
  | .error failure => .error failure trace

/-- The command for a graph. -/
def command (graph : Graph) (request : RenderRequest) : Rendering (List String) := do
  report .info "CliBuilder"
    ("Construindo comando FFmpeg para " ++ decimalText graph.inputs.length ++ " inputs")
  let command ← EncoderCommand.build graph request.output request.settings
  report .debug "CliBuilder" ("Comando FFmpeg: " ++ EncoderCommand.line command)
  return command

/-- Tells the listener of an event, if there is one. -/
def tell (listener : Option RenderListener) (event : RenderEvent) : Rendering Unit := do
  if let some listen := listener then
    modify fun trace => { trace with events := trace.events ++ [event] }
    liftM (listen event)

/-- Runs a command; the listener hears of its progress. -/
def execute (process : EncoderProcess) (command : List String) (listener : Option RenderListener)
    (total limit : Value) : Rendering EncoderResult := fun trace =>
  let (outcome, run) := EncoderRun.traced
    (EncoderRun.run process command (listener.map fun listen news => listen (.progress news)) total
      limit)
  let trace := { trace with
    log := trace.log ++ run.log
    events := trace.events ++ run.reports.map .progress
    encoder := some run }
  match outcome with
  | .ok result => .ok result trace
  | .error failure => .error failure trace

/-- Renders a request. -/
def render (existence : ExistenceCheck) (process : EncoderProcess)
    (listener : Option RenderListener) (request : RenderRequest) : Rendering RenderResult := do
  report .info "RenderService" ("Iniciando renderização: saída=" ++ request.output.toString)
  let graph ← compile existence request
  let command ← command graph request
  if request.dryRun then
    report .info "RenderService" "Dry run: comando não executado"
    return ⟨request.output, command, graph, false⟩
  else
    tell listener (.started (EncoderCommand.line command))
    let _ ← execute process command listener graph.total request.limit
    report .info "RenderService" ("Renderização concluída: " ++ request.output.toString)
    return ⟨request.output, command, graph, true⟩

/-- The outcome of a step on an empty trace, and the trace it left. -/
def traced {α : Type} (step : Rendering α) : Except Failure α × RenderTrace :=
  match step.run {} with
  | .ok value trace => (.ok value, trace)
  | .error failure trace => (.error failure, trace)

end Rendering

end Montage
