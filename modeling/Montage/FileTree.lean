import Montage.Path
import Montage.Text.Surrogate

/-!
# File trees

The files that a run can see: a place is the list of names that leads to it from the root. Paths
are followed from the working directory, name by name, and a double dot goes back from the place
that was really reached. Writing to one place leaves all others as they are.
-/

namespace Montage

/-- What a file holds: a text, or bytes that are no text. -/
inductive FileContent where
  | text (text : String)
  | binary
deriving DecidableEq, Repr

inductive FileEntry where
  | directory
  | file (content : FileContent)
deriving DecidableEq, Repr

/-- Why a path leads nowhere. -/
inductive FileFault where
  | notFound
  | notADirectory
  | isADirectory
  | nameTooLong
  /-- The path holds a character that no name can hold. -/
  | badName
  /-- The path holds a lone surrogate that no name can hold. -/
  | loneSurrogate
deriving DecidableEq, Repr

/-- The root is a directory without being listed. -/
structure FileTree where
  entries : List (List String × FileEntry) := []
  working : List String := []
deriving DecidableEq

/-- Where a path leads: an entry, or a place in a directory where nothing is yet. -/
inductive Destination where
  | entry (place : List String) (entry : FileEntry)
  | vacant (place : List String)
deriving DecidableEq

namespace FileTree

/-- The most bytes of one name. -/
def maxNameBytes : Nat := 255

/-- The most bytes of a whole path. -/
def maxPathBytes : Nat := 4095

def entryAt? (tree : FileTree) (place : List String) : Option FileEntry :=
  if place.isEmpty then some .directory
  else (tree.entries.find? fun known => known.1 == place).map (·.2)

/-- Follows names from a directory. -/
def walk (tree : FileTree) (place : List String) : List String → Except FileFault Destination
  | [] => .ok (.entry place .directory)
  | name :: rest =>
    if name = ".." then walk tree place.dropLast rest
    else if maxNameBytes < name.utf8ByteSize then .error .nameTooLong
    else
      let next := place ++ [name]
      match tree.entryAt? next with
      | some .directory => walk tree next rest
      | some (.file content) =>
        if rest.isEmpty then .ok (.entry next (.file content)) else .error .notADirectory
      | none => if rest.isEmpty then .ok (.vacant next) else .error .notFound

/-- Follows a path. -/
def follow (tree : FileTree) (path : Path) : Except FileFault Destination :=
  let text := path.toString
  if !text.toList.all Text.isNameable then .error .loneSurrogate
  else if text.toList.any (· == '\x00') then .error .badName
  else if maxPathBytes < text.utf8ByteSize then .error .nameTooLong
  else tree.walk (if path.isAbsolute then [] else tree.working) path.components

/-- The entry that a path leads to. -/
def find (tree : FileTree) (path : Path) : Except FileFault FileEntry := do
  match ← tree.follow path with
  | .entry _ entry => return entry
  | .vacant _ => throw .notFound

/-- Whether a path leads to an entry; only an overlong name is a fault. -/
def hasEntry (tree : FileTree) (path : Path) : Except FileFault Bool :=
  match tree.find path with
  | .ok _ => .ok true
  | .error .nameTooLong => .error .nameTooLong
  | .error _ => .ok false

/-- What the file at a path holds. -/
def read (tree : FileTree) (path : Path) : Except FileFault FileContent := do
  match ← tree.find path with
  | .file content => return content
  | .directory => throw .isADirectory

/-- The names in the directory at a path, with what they name. -/
def list (tree : FileTree) (path : Path) : Except FileFault (List (String × FileEntry)) := do
  match ← tree.follow path with
  | .entry place .directory =>
    return tree.entries.filterMap fun (known, entry) =>
      match known.getLast? with
      | some name => if known.dropLast = place then some (name, entry) else none
      | none => none
  | .entry _ (.file _) => throw .notADirectory
  | .vacant _ => throw .notFound

/-- Puts an entry at a place. -/
def put (tree : FileTree) (place : List String) (entry : FileEntry) : FileTree :=
  { tree with entries := tree.entries.filter (fun known => known.1 != place) ++ [(place, entry)] }

/-- Writes a file; its directory must exist. -/
def write (tree : FileTree) (path : Path) (content : FileContent) : Except FileFault FileTree := do
  match ← tree.follow path with
  | .entry _ .directory => throw .isADirectory
  | .entry place (.file _) => return tree.put place (.file content)
  | .vacant place => return tree.put place (.file content)

/-- Sees to it that there is a file at a path; what it holds stays. -/
def touch (tree : FileTree) (path : Path) : Except FileFault FileTree := do
  match ← tree.follow path with
  | .entry _ .directory => throw .isADirectory
  | .entry _ (.file _) => return tree
  | .vacant place => return tree.put place (.file (.text ""))

/-- The path from the root that a path stands for when its double dots are taken away as they are
written. -/
def absolute (tree : FileTree) (path : Path) : Path :=
  let base : Path := ⟨1, tree.working⟩
  let joined := base.join path
  ⟨joined.root, joined.components.foldl (fun place name =>
    if name = ".." then place.dropLast else place ++ [name]) []⟩

@[simp] theorem entryAt?_put_self (tree : FileTree) {place : List String} (entry : FileEntry)
    (inside : place ≠ []) : (tree.put place entry).entryAt? place = some entry := by
  have missing : (tree.entries.filter fun known => known.1 != place).find?
      (fun known => known.1 == place) = none := by
    simp [List.find?_eq_none]
  simp [entryAt?, put, inside, List.find?_append, missing]

/-- A written place does not show at any other place. -/
theorem entryAt?_put_of_ne (tree : FileTree) {place other : List String} (entry : FileEntry)
    (differ : other ≠ place) : (tree.put place entry).entryAt? other = tree.entryAt? other := by
  have apart : (place == other) = false := by simpa using fun same => differ same.symm
  have kept : (fun known : List String × FileEntry =>
      decide ((known.1 != place) = true ∧ (known.1 == other) = true)) =
      fun known => known.1 == other := by
    funext known
    by_cases same : known.1 = other
    · simp [same, differ]
    · simp [same]
  unfold entryAt? put
  rw [List.find?_append, List.find?_filter, kept]
  simp [apart]

end FileTree

end Montage
