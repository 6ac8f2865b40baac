/-!
# Paths

A path is a count of slashes at its root and its components. Empty components and single dots are
dropped, double dots are kept: they are resolved only by a file system.
-/

namespace Montage

/-- The root is no slash for a relative path, one for an absolute one, and two where exactly two
are written. -/
structure Path where
  root : Nat
  components : List String
deriving DecidableEq, Repr

namespace Path

/-- The parts of a text between slashes. -/
def splitSlashes : List Char → List (List Char)
  | [] => [[]]
  | c :: rest =>
    if c = '/' then [] :: splitSlashes rest
    else
      match splitSlashes rest with
      | [] => [[c]]
      | first :: others => (c :: first) :: others

/-- The path that a text denotes. -/
def ofString (text : String) : Path :=
  let characters := text.toList
  let slashes := (characters.takeWhile (· == '/')).length
  let parts := (splitSlashes characters).filter fun part => !part.isEmpty && part != ['.']
  ⟨if 2 < slashes then 1 else slashes, parts.map String.ofList⟩

/-- Components between slashes. -/
def joinSlashes : List String → String
  | [] => ""
  | [component] => component
  | component :: rest => component ++ "/" ++ joinSlashes rest

/-- The text of a path; that of the empty relative one is a dot. -/
def toString (path : Path) : String :=
  let body := joinSlashes path.components
  match path.root with
  | 0 => if path.components.isEmpty then "." else body
  | 1 => "/" ++ body
  | _ => "//" ++ body

def isAbsolute (path : Path) : Bool :=
  path.root != 0

/-- One path below another; an absolute path stands alone. -/
def join (base path : Path) : Path :=
  if path.isAbsolute then path else ⟨base.root, base.components ++ path.components⟩

/-- The last component; empty where there is none. -/
def name (path : Path) : String :=
  path.components.getLast?.getD ""

/-- The length of a name without its extension: the last point, unless it is first or last, starts
the extension. -/
def stemLength (name : List Char) : Nat :=
  let afterPoint := name.reverse.takeWhile (· != '.')
  let stem := name.length - afterPoint.length - 1
  if afterPoint.length < name.length ∧ !afterPoint.isEmpty ∧ 0 < stem then stem else name.length

/-- The path with another extension in the place of that of its last component; none where there
is no component. -/
def withExtension? (path : Path) (extension : String) : Option Path :=
  path.components.getLast?.map fun last =>
    let characters := last.toList
    let stem := String.ofList (characters.take (stemLength characters))
    ⟨path.root, path.components.dropLast ++ [stem ++ extension]⟩

theorem isSome_withExtension?_iff (path : Path) (extension : String) :
    (path.withExtension? extension).isSome ↔ path.components ≠ [] := by
  simp [withExtension?]

theorem getLast?_eq_name {path : Path} (named : path.components ≠ []) :
    path.components.getLast? = some path.name := by
  simp [name, List.getLast?_eq_some_getLast named]

@[simp] theorem join_relative (base : Path) (components : List String) :
    base.join ⟨0, components⟩ = ⟨base.root, base.components ++ components⟩ := rfl

end Path

end Montage
