import Montage.Compile.CutInputs
import Montage.Document.Writer
import Montage.Script

/-!
# The catalogue of episodes

Below a root directory every project has a directory, and every episode a directory in it with its
edit list. The media files of an episode are looked for from its own directory. A project may
have a script beside its episodes.
-/

namespace Montage.Catalogue

/-- The name of the file with an episode's edit list. -/
def listName : String := "config.json"

/-- The name of a project's script. -/
def scriptName : String := "script.py"

/-- The outcome of a step on the file tree, its fault told with the path it concerns. -/
def onPath {α : Type} (path : Path) (step : Except FileFault α) : Except Failure α :=
  step.mapError fun fault => .store (.file fault path)

/-- Names in ascending order. -/
def sorted (names : List String) : List String :=
  names.mergeSort fun first second => decide (first ≤ second)

def projectDirectory (root : Path) (project : String) : Path :=
  root.join (.ofString project)

def episodeDirectory (root : Path) (project episode : String) : Path :=
  (projectDirectory root project).join (.ofString episode)

def listPath (directory : Path) : Path :=
  directory.join (.ofString listName)

def scriptPath (root : Path) (project : String) : Path :=
  (projectDirectory root project).join (.ofString scriptName)

/-- The directories in a directory. -/
def directories (tree : FileTree) (path : Path) : Except Failure (List String) := do
  let entries ← onPath path (tree.list path)
  return entries.filterMap fun (name, entry) => if entry = .directory then some name else none

/-- The projects below a root. -/
def projects (tree : FileTree) (root : Path) : Except Failure (List String) := do
  return sorted (← directories tree root)

/-- The episodes of a project that have an edit list. -/
def episodes (tree : FileTree) (root : Path) (project : String) : Except Failure (List String) := do
  let directory := projectDirectory root project
  let names ← directories tree directory
  let listed ← names.filterM fun name =>
    let path := listPath (directory.join ⟨0, [name]⟩)
    onPath path (tree.hasEntry path)
  return sorted listed

/-- The text of a file. -/
def readText (tree : FileTree) (path : Path) : Except Failure String := do
  match ← onPath path (tree.read path) with
  | .text text => return text
  | .binary => throw (.store .notText)

/-- The document in a file. -/
def readDocument (tree : FileTree) (path : Path) : Except Failure Value := do
  (Document.read (← readText tree path)).mapError fun cause => .store (.unreadable cause)

/-- A document with a member that it does not have yet; one that it has stays. -/
def withMember (document : Value) (name : String) (value : Value) : Except Defect Value :=
  match document with
  | .object members =>
    .ok (.object (if members.any (·.1 == name) then members else members ++ [(name, value)]))
  | _ => .error .noMembers

/-- The project of an episode. -/
def load (tree : FileTree) (root : Path) (project episode : String) : Except Failure Project := do
  let base := episodeDirectory root project episode
  let document ← readDocument tree (listPath base)
  let document ← withMember document "directory" (.text project)
  let document ← withMember document "id" (.text episode)
  Project.ofValue document base

/-- What is reported of a loaded project. -/
def loadReport (project episode : String) (loaded : Project) : LogRecord :=
  ⟨.info, "ProjectStore", "Projeto " ++ project ++ "/" ++ episode ++ " carregado com " ++
    decimalText loaded.cuts.length ++ " cortes"⟩

/-- The change that the script of a project makes; none if it has no script. -/
def transform? (scripts : ScriptReader) (tree : FileTree) (root : Path) (project : String) :
    Except Failure (Option ProjectTransform) := do
  let path := scriptPath root project
  if ← onPath path (tree.hasEntry path) then
    let place := if path.isAbsolute then path else Path.join ⟨1, tree.working⟩ path
    match ← scripts (← onPath place (tree.read place)) with
    | some change => return some change
    | none => throw (.store (.noTransform path))
  else return none

/-- What is reported of a script. -/
def scriptReport (root : Path) (project : String) : LogRecord :=
  ⟨.info, "ProjectStore",
    "Script customizado encontrado: " ++ (scriptPath root project).toString⟩

/-- The text of the copy of a project. -/
def copyText (project : Project) : String :=
  Document.write project.toValue

/-- Writes the copy of a project, and gives the tree afterwards. What was written before a text
that cannot be stored stays in the file. -/
def saveCopy (tree : FileTree) (project : Project) (path : Path) : Except Failure Unit × FileTree :=
  match onPath path (tree.write path (.text (Document.written project.toValue))) with
  | .error failure => (.error failure, tree)
  | .ok tree =>
    (if Text.isStorable (copyText project) then .ok () else .error (.store .notStorable), tree)

/-- What is reported of a copy. -/
def copyReport (path : Path) : LogRecord :=
  ⟨.info, "ProjectStore", "Cópia da configuração salva em " ++ path.toString⟩

/-- Whether a media file is in the file tree. -/
def existence (tree : FileTree) : ExistenceCheck := fun base id => do
  let path ← CutInputs.mediaPath base id
  onPath path (tree.hasEntry path)

end Montage.Catalogue
