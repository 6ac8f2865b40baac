import Montage.Catalogue
import Montage.Settings.Layer
import Montage.Settings.VariableFile

/-!
# Rules for variables

Settings may come from variables of the surroundings, from files of variables, and from files that
hold one variable each, named by it. The names of these variables are the names of settings behind a
common start, and their case does not matter. A layer of settings may replace each of these rules.
-/

namespace Montage

structure VariableRules where
  /-- What the name of every variable begins with; none where the rule is unusable. -/
  start : Option String := some "EDL_"
  exactCase : Bool := false
  withoutEmpty : Bool := false
  /-- The text that stands for null. -/
  nullText : Option Value := none
deriving DecidableEq

/-- Variables by names; one without a value is known but gives none. -/
abbrev Variables := List (String × Option String)

namespace VariableRules

/-- The rules that a layer asks for. -/
def ofLayer (given : SettingsLayer) : VariableRules where
  start :=
    match given.rule? "_env_prefix" with
    | none => some "EDL_"
    | some (.text start) => some start
    | some _ => none
  exactCase := ((given.rule? "_case_sensitive").map Value.isPresent).getD false
  withoutEmpty := ((given.rule? "_env_ignore_empty").map Value.isPresent).getD false
  nullText := given.rule? "_env_parse_none_str"

/-- The spelling under which a variable is known. -/
def spelling (rules : VariableRules) (name : String) : String :=
  if rules.exactCase then name else SettingsLayer.smallLetters name

/-- The variables with those of another source, which replace them. -/
def gather (rules : VariableRules) (known found : Variables) : Variables :=
  let counted := found.filter fun entry => !(rules.withoutEmpty && entry.2 == some "")
  counted.foldl (fun known (name, value) =>
    VariableFile.define (rules.spelling name) value known) known

/-- The layer in which every setting has the value that `look` finds under the spelling of its
variable. -/
def layerOf (rules : VariableRules) (look : String → Except Failure (Option Value)) :
    Except Failure SettingsLayer := do
  match rules.start with
  | none => throw .variableRules
  | some start =>
    let found ← Settings.names.mapM fun name => do
      return (← look (rules.spelling (start ++ name))).map fun value => (name, value)
    return found.filterMap id

/-- The layer of some variables. -/
def layer (rules : VariableRules) (known : Variables) : Except Failure SettingsLayer :=
  rules.layerOf fun name => .ok ((known.lookup name).join.map fun text =>
    if rules.nullText = some (.text text) then .null else .text text)

/-- The name of the file of variables in the working directory. -/
def fileName : String := ".env"

/-- The paths that a rule names: one, or any number of them. -/
def paths : Value → Except Failure (List Value)
  | .text path => .ok [.text path]
  | value => value.parts.mapError .defect

/-- The path that a part of a rule is. -/
def path : Value → Except Failure Path
  | .text path => .ok (.ofString path)
  | _ => .error (.defect .wrongKind)

/-- The files of variables that a layer names. Null names none. -/
def files (given : SettingsLayer) : Except Failure (List Value) :=
  match Value.lookup given "_env_file" with
  | none => .ok [.text fileName]
  | some .null => .ok []
  | some value => paths value

/-- What the file of variables at a path says; nothing where there is no file. -/
def readFile (tree : FileTree) (environment : List (String × String)) (path : Path) :
    Except Failure VariableFile.Contents :=
  match tree.find path with
  | .ok (.file (.text text)) => .ok (VariableFile.read environment text)
  | .ok (.file .binary) => .error (.store .notText)
  | .error .nameTooLong => .error (.store (.file .nameTooLong path))
  | _ => .ok ⟨[], []⟩

/-- The variables of files, the later ones counting, and the lines that are skipped in them. -/
def readFiles (rules : VariableRules) (tree : FileTree) (environment : List (String × String))
    (files : List Value) : Except Failure (Variables × List Nat) :=
  files.foldlM (fun (known, skipped) file => do
    let contents ← readFile tree environment (← path file)
    return (rules.gather known contents.entries, skipped ++ contents.skipped)) ([], [])

/-- The directories that hold files of one variable each. One that is missing is passed over. -/
def directories (tree : FileTree) (given : SettingsLayer) : Except Failure (List Path) := do
  match given.rule? "_secrets_dir" with
  | none => return []
  | some value =>
    let named ← (← paths value).mapM path
    let present ← named.filterM fun directory =>
      Catalogue.onPath directory (tree.hasEntry directory)
    for directory in present do
      if (← Catalogue.onPath directory (tree.find directory)) ≠ .directory then
        throw .variableRules
    return present

/-- The variable that a file in a directory holds, without the blanks around it. -/
def held? (rules : VariableRules) (tree : FileTree) (directory : Path) (name : String) :
    Except Failure (Option Value) := do
  let entries ← Catalogue.onPath directory (tree.list directory)
  match entries.find? fun entry => rules.spelling entry.1 == name with
  | some (_, .file (.text text)) => return some (.text (Text.strip text))
  | some (_, .file .binary) => throw .variableRules
  | some (_, .directory) | none => return none

/-- The layer of the variables in directories; the last directory counts. -/
def heldLayer (rules : VariableRules) (tree : FileTree) (directories : List Path) :
    Except Failure SettingsLayer :=
  rules.layerOf fun name => directories.reverse.findSomeM? fun directory =>
    rules.held? tree directory name

end VariableRules

end Montage
