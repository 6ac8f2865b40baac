import Montage.Session

/-!
# The command line

A session with the files below the working directory. The encoder is not started here: the program
prints its command, as every dry run does, for whoever wants to run it.
-/

namespace Montage.CommandLine

/-- How deep directories are looked into. -/
def maxDepth : Nat := 12

/-- The ends of the names of files that hold text. -/
def textEnds : List String := [".json", ".py", ".env"]

/-- The entry of a file; only files of text are read. -/
def fileEntry (path : String) : IO FileEntry := do
  if textEnds.any fun textEnd => path.endsWith textEnd then
    let bytes ← IO.FS.readBinFile path
    return .file ((String.fromUTF8? bytes).elim .binary .text)
  else return .file .binary

/-- The entries below the directory at a place, down to some depth. -/
def entriesBelow (depth : Nat) (place : List String) : IO (List (List String × FileEntry)) := do
  match depth with
  | 0 => return []
  | depth + 1 =>
    let path := (Path.mk 1 place).toString
    let found ← (← IO.FS.realPath path).readDir
    let nested ← found.toList.mapM fun entry => do
      let inner := place ++ [entry.fileName]
      if ← entry.path.isDir then
        return (inner, FileEntry.directory) :: (← entriesBelow depth inner)
      else return [(inner, ← fileEntry (Path.mk 1 inner).toString)]
    return nested.flatten

/-- The files below the working directory. -/
def workingTree : IO FileTree := do
  let working := (Path.ofString (toString (← IO.currentDir))).components
  let parents := (List.range working.length).map fun length =>
    (working.take (length + 1), FileEntry.directory)
  return { entries := parents ++ (← entriesBelow maxDepth working), working }

/-- The variables that hold settings. -/
def environment : IO (List (String × String)) := do
  let candidates := Settings.names.map fun name =>
    String.map Char.toUpper ("EDL_" ++ name)
  candidates.filterMapM fun name => do return (← IO.getEnv name).map fun value => (name, value)

/-- Runs a session, and asks for a line of input whenever the session lacks one. It is run from its
start every time; what it printed before is not printed again. -/
partial def converse (surroundings : Surroundings) (tree : FileTree) (arguments : List String)
    (printed : Nat) (input : String) : IO (Except Failure Int × SessionTrace) := do
  let (outcome, trace) := Session.start surroundings tree input arguments
  let output ← IO.getStdout
  output.putStr (String.ofList (trace.output.toList.drop printed))
  output.flush
  match outcome with
  | .error (.session (.choice .noAnswer)) =>
    let line ← (← IO.getStdin).getLine
    if line = "" then return (outcome, trace)
    else converse surroundings tree arguments trace.output.length (input ++ line)
  | _ => return (outcome, trace)

/-- Adds the records of a session to its log. -/
def writeLog (trace : SessionTrace) : IO Unit := do
  if let some (path, _) := trace.log then
    let log ← IO.FS.Handle.mk path.toString .append
    for line in trace.records.flatMap (LogRecord.lines "edl_render") do log.putStrLn line

/-- The exit code of an outcome. -/
def exitCode : Except Failure Int → UInt32
  | .ok code => code.toNat.toUInt32
  | .error (.session (.options .help)) => 0
  | .error (.session (.options .usage)) => 2
  | .error _ => 1

/-- Runs one session, and gives its exit code. -/
def run (arguments : List String) : IO UInt32 := do
  let tree ← workingTree
  let surroundings : Surroundings := {
    environment := ← environment, process := { clock := fun _ => .int 0 } }
  let (outcome, trace) ← converse surroundings tree ("--dry-run" :: arguments) 0 ""
  writeLog trace
  let errors ← IO.getStderr
  for notice in trace.notices do
    if let .shown text := notice then errors.putStr text
  if let .error failure := outcome then errors.putStrLn failure.message
  return exitCode outcome

end Montage.CommandLine

def main (arguments : List String) : IO UInt32 :=
  Montage.CommandLine.run arguments
