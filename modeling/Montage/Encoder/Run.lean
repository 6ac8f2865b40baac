import Montage.Encoder.Command
import Montage.Encoder.Progress
import Montage.Log

/-!
# Running the encoder

A run starts the encoder's process, reads its output line by line, reports progress, and waits for
its end. A process that takes longer than it is allowed to is asked to end, and is ended by force
if it does not. Whatever happens after the start, both streams of the process are closed; what was
done before a failure stays in the trace of the run.
-/

namespace Montage

/-- How a process behaves: the lines it writes, the code it ends with, and whether it ignores the
request to end. -/
structure EncoderProcess where
  output : List String := []
  errors : List String := []
  code : Int := 0
  stubborn : Bool := false
  /-- The readings of the clock, counted from the one at the start. -/
  clock : Nat → Value

/-- What is asked of a running process. -/
inductive ProcessRequest where
  | wait
  | waitBriefly
  | terminate
  | kill
deriving DecidableEq, Repr

/-- What a run has done so far. -/
structure EncoderTrace where
  spawned : Option (List String) := none
  lines : List String := []
  block : ProgressBlock := []
  readings : Nat := 0
  reports : List ProgressReport := []
  requests : List ProcessRequest := []
  outputClosed : Bool := false
  errorsClosed : Bool := false
  log : List LogRecord := []
deriving DecidableEq

/-- What a finished run gives. -/
structure EncoderResult where
  command : List String
  code : Int
  output : String
  errors : String
deriving DecidableEq

/-- A step of a run, which may fail. -/
abbrev Encoding := EStateM Failure EncoderTrace

/-- What is done with a report; it may fail. -/
abbrev ProgressListener := ProgressReport → Except Failure Unit

namespace Encoding

def report (level : LogLevel) (text : String) : Encoding Unit :=
  modify fun trace => { trace with log := trace.log ++ [⟨level, "Runner", text⟩] }

def request (asked : ProcessRequest) : Encoding Unit :=
  modify fun trace => { trace with requests := trace.requests ++ [asked] }

def record (line : String) : Encoding Unit :=
  modify fun trace => { trace with lines := trace.lines ++ [line] }

def closeStreams : Encoding Unit :=
  modify fun trace => { trace with outputClosed := true, errorsClosed := true }

/-- The next reading of the clock. -/
def now (process : EncoderProcess) : Encoding Value :=
  modifyGet fun trace =>
    (process.clock trace.readings, { trace with readings := trace.readings + 1 })

end Encoding

namespace EncoderRun

open Encoding

/-- Asks a process to end, and ends it by force if it does not within a short time. -/
def terminate (process : EncoderProcess) : Encoding Unit := do
  report .error "Timeout excedido, terminando processo"
  request .terminate
  request .waitBriefly
  if process.stubborn then
    report .error "Processo não terminou graciosamente, forçando..."
    request .kill
    request .wait

/-- Fails if more time than the limit has passed since the start; without a limit the clock is not
read. -/
def checkTime (process : EncoderProcess) (start limit : Value) : Encoding Unit := do
  if limit.isPresent then
    let passed ← (← now process).sub start
    if ← limit.lt passed then
      terminate process
      throw (.naming limit (.encoder (.timedOut limit)))

/-- Hands a report to the listener, if there is one. -/
def deliver (listener : Option ProgressListener) (news : ProgressReport) : Encoding Unit := do
  if let some listen := listener then
    modify fun trace => { trace with reports := trace.reports ++ [news] }
    liftM (listen news)

/-- Tells what a finished block says. -/
def announce (listener : Option ProgressListener) (total : Value) (block : ProgressBlock) :
    Encoding Unit := do
  match ← ProgressNews.ofBlock block total with
  | .silent => return
  | .unreadable mark => report .debug ("Marca de progresso ignorada: " ++ mark)
  | .report news => deliver listener news

/-- Takes in the fields of a line. -/
def absorb (listener : Option ProgressListener) (total : Value) (line : String) :
    Encoding Unit := do
  let (block, finished) := (← get).block.feed line
  modify fun trace => { trace with block := block }
  if let some finished := finished then announce listener total finished

/-- Reads one line; blank lines are skipped, and the time is checked before a line is used. -/
def readLine (process : EncoderProcess) (listener : Option ProgressListener)
    (total start limit : Value) (raw : String) : Encoding Unit := do
  let line := Text.strip raw
  if line ≠ "" then
    record line
    checkTime process start limit
    absorb listener total line

def readLines (process : EncoderProcess) (listener : Option ProgressListener)
    (total start limit : Value) : List String → Encoding Unit
  | [] => return
  | line :: rest => do
    readLine process listener total start limit line
    readLines process listener total start limit rest

/-- Reads all output and waits for the end of the process. -/
def follow (process : EncoderProcess) (listener : Option ProgressListener)
    (total start limit : Value) : Encoding Unit := do
  readLines process listener total start limit process.output
  request .wait

/-- Runs a step and closes the streams, whether the step fails or not. -/
def closing (step : Encoding Unit) : Encoding Unit := fun trace =>
  match step trace with
  | .ok _ trace => closeStreams trace
  | .error failure trace => (closeStreams *> throw failure) trace

/-- The options that make the encoder write its progress. -/
def progressOptions : List String := ["-progress", "pipe:1", "-nostats"]

/-- A command with the progress options before its last part; none for an empty command. -/
def withProgress? (command : List String) : Option (List String) :=
  command.getLast?.map fun last => command.dropLast ++ progressOptions ++ [last]

/-- What the code of an ended process means. -/
def conclude (process : EncoderProcess) (command : List String) : Encoding EncoderResult := do
  let errors := String.join process.errors
  if process.code = 0 then
    report .info "Comando FFmpeg finalizado com sucesso."
    return ⟨command, process.code, "\n".intercalate (← get).lines, errors⟩
  else
    report .error ("Comando FFmpeg retornou código " ++ decimalText process.code ++ ". Stderr: " ++
      errors)
    throw (.encoder (.exited process.code (Text.strip errors)))

/-- Runs a command to its end. -/
def run (process : EncoderProcess) (command : List String) (listener : Option ProgressListener)
    (total limit : Value) : Encoding EncoderResult := do
  report .info ("Executando comando FFmpeg: " ++ EncoderCommand.line command)
  match withProgress? command with
  | none => throw (.defect .outOfBounds)
  | some spawned =>
    modify fun trace => { trace with spawned := some spawned }
    let start ← now process
    closing (follow process listener total start limit)
    conclude process command

/-- The outcome of a step on an empty trace, and the trace it left. -/
def traced {α : Type} (step : Encoding α) : Except Failure α × EncoderTrace :=
  match step.run {} with
  | .ok value trace => (.ok value, trace)
  | .error failure trace => (.error failure, trace)

end EncoderRun

end Montage
