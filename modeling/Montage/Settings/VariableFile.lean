import Montage.Text.Blank

/-!
# Files of variables

A file of variables has one `NAME=value` per line, or a bare name. A value may stand between single
or double quotes, and may then go over several lines; without quotes it ends at a comment. A value
refers to other variables by their names in braces after a dollar sign. Lines of any other form
are skipped, and the number of the line at which each of them begins is kept.
-/

namespace Montage.VariableFile

open Text

/-- A blank that does not end a line. -/
def isInnerBlank (c : Char) : Bool :=
  isBlank c && c != '\n' && c != '\r'

/-- A text in which every line ends with a line feed alone. -/
def unifyLineEnds : List Char → List Char
  | '\r' :: '\n' :: rest => '\n' :: unifyLineEnds rest
  | '\r' :: rest => '\n' :: unifyLineEnds rest
  | c :: rest => c :: unifyLineEnds rest
  | [] => []

/-- What stands before the quote that closes a quoted value, and what follows it. A character after
a backslash belongs to it, so that a quote there closes nothing. -/
def closeQuote? (quote : Char) : List Char → Option (List Char × List Char)
  | [] => none
  | [c] => if c = quote then some ([], []) else none
  | c :: next :: rest =>
    if c = quote then some ([], next :: rest)
    else if c = '\\' then
      (closeQuote? quote rest).map fun (value, after) => (c :: next :: value, after)
    else (closeQuote? quote (next :: rest)).map fun (value, after) => (c :: value, after)

/-- The character that a letter after a backslash stands for between double quotes. -/
def escaped? : Char → Option Char
  | '\\' => some '\\'
  | '\'' => some '\''
  | '"' => some '"'
  | 'a' => some '\x07'
  | 'b' => some '\x08'
  | 'f' => some '\x0c'
  | 'n' => some '\n'
  | 'r' => some '\r'
  | 't' => some '\t'
  | 'v' => some '\x0b'
  | _ => none

/-- Between single quotes only backslashes and single quotes are escaped. -/
def escapedPlain? (c : Char) : Option Char :=
  if c = '\\' ∨ c = '\'' then some c else none

/-- Replaces escapes; a backslash before any other character stays. -/
def unescape (meaning : Char → Option Char) : List Char → List Char
  | [] => []
  | [c] => [c]
  | c :: next :: rest =>
    if c = '\\' then
      match meaning next with
      | some plain => plain :: unescape meaning rest
      | none => c :: unescape meaning (next :: rest)
    else c :: unescape meaning (next :: rest)

/-- A value without quotes: what stands before a comment, which a blank must precede. -/
def withoutComment : List Char → List Char
  | [] => []
  | c :: rest =>
    if isBlank c && ((c :: rest).dropWhile isBlank).head? == some '#' then []
    else c :: withoutComment rest

/-- A value without the blanks at its end. -/
def trimEnd (text : List Char) : List Char :=
  (text.reverse.dropWhile isBlank).reverse

/-- The value that follows an equals sign, and what follows the value. -/
def value? (text : List Char) : Option (List Char × List Char) :=
  match text.dropWhile isInnerBlank with
  | '\'' :: rest =>
    (closeQuote? '\'' rest).map fun (value, after) => (unescape escapedPlain? value, after)
  | '"' :: rest =>
    (closeQuote? '"' rest).map fun (value, after) => (unescape escaped? value, after)
  | _ =>
    let line := withoutComment (text.takeWhile (· != '\n'))
    some (trimEnd (line.dropWhile isInnerBlank), text.dropWhile (· != '\n'))

/-- The text without a comment at its front. -/
def skipComment (text : List Char) : List Char :=
  match text.dropWhile isInnerBlank with
  | '#' :: rest => rest.dropWhile (· != '\n')
  | _ => text

/-- What follows the end of a line that has nothing left; none if something is left. -/
def endLine? (text : List Char) : Option (List Char) :=
  match text.dropWhile isInnerBlank with
  | [] => some []
  | '\n' :: rest => some rest
  | _ => none

/-- The text without the word that may stand before a name. -/
def skipExport (text : List Char) : List Char :=
  if "export".toList.isPrefixOf text then
    let rest := text.drop 6
    if (rest.head?.map isInnerBlank).getD false then rest.dropWhile isInnerBlank else text
  else text

/-- The name at the front of a text, and what follows it. A comment has no name, and any other text
that does not start with one is refused. -/
def name? : List Char → Option (Option (List Char) × List Char)
  | '#' :: rest => some (none, '#' :: rest)
  | '\'' :: rest =>
    match rest.span (· != '\'') with
    | (c :: name, _ :: after) => some (some (c :: name), after)
    | _ => none
  | text =>
    match text.span fun c => c != '=' && c != '#' && !isBlank c with
    | ([], _) => none
    | (name, after) => some (some name, after)

/-- One variable: its name, if the line has one, and its value, if it has one. -/
abbrev Binding := Option (List Char) × Option (List Char)

/-- The binding at the front of a text, and what follows its line; of a line of another form, what
is left where it departs. -/
def binding (text : List Char) : Except (List Char) (Binding × List Char) := do
  let start := skipExport text
  let (name, rest) ← (name? start).getDM (throw start)
  let rest := rest.dropWhile isInnerBlank
  let (value, rest) ← match rest with
    | '=' :: after =>
      (value? after).elim (throw (after.dropWhile isInnerBlank)) fun (value, rest) =>
        pure (some value, rest)
    | _ => pure (none, rest)
  let rest := skipComment rest
  return ((name, value), ← (endLine? rest).getDM (throw rest))

/-- The named bindings of a text that has at most as many lines as `lines` and begins at the line
with the number `number`; of a line of another form, its number. The blank lines before a binding
count as part of it. -/
def bindings (lines number : Nat) (text : List Char) :
    List (Except Nat (String × Option String)) :=
  match lines with
  | 0 => []
  | lines + 1 =>
    let onwards := fun rest => bindings lines (number + (text.count '\n' - rest.count '\n')) rest
    match text.dropWhile isBlank with
    | [] => []
    | start =>
      match binding start with
      | .ok ((some name, value), rest) =>
        .ok (String.ofList name, value.map String.ofList) :: onwards rest
      | .ok ((none, _), rest) => onwards rest
      | .error rest => .error number :: onwards ((rest.dropWhile (· != '\n')).drop 1)

/-- The text that a reference to a variable stands for: the value of a known variable, or the
default after a colon and a minus if the variable is not known. -/
def reference? (known : String → Option String) (inner : List Char) : Option String :=
  let name := String.ofList (inner.takeWhile (· != ':'))
  match inner.dropWhile (· != ':') with
  | [] => some ((known name).getD "")
  | ':' :: '-' :: default => some ((known name).getD (String.ofList default))
  | _ => none

/-- Replaces the references in a value; `skip` characters belong to a reference that is replaced
already. -/
def expandFrom (known : String → Option String) (skip : Nat) : List Char → List Char
  | [] => []
  | c :: rest =>
    match skip, c, rest with
    | skip + 1, _, _ => expandFrom known skip rest
    | 0, '$', '\x7b' :: inner =>
      let name := inner.takeWhile (· != '\x7d')
      match reference? known name with
      | some value =>
        if name.length < inner.length then value.toList ++ expandFrom known (name.length + 2) rest
        else '$' :: expandFrom known 0 rest
      | none => '$' :: expandFrom known 0 rest
    | 0, c, _ => c :: expandFrom known 0 rest

/-- Replaces the references in a value. -/
def expand (known : String → Option String) (text : List Char) : List Char :=
  expandFrom known 0 text

/-- The variables with one more; a name that is known keeps its place. -/
def define (name : String) (value : Option String) :
    List (String × Option String) → List (String × Option String)
  | [] => [(name, value)]
  | (known, old) :: rest =>
    if known = name then (known, value) :: rest else (known, old) :: define name value rest

/-- What a file of variables says. -/
structure Contents where
  entries : List (String × Option String)
  /-- The numbers of the lines that are not understood. -/
  skipped : List Nat
deriving DecidableEq, Repr

/-- The variables of bindings. A value may refer to the variables before it and to those of the
surroundings; a bare name there hides a variable and stands for nothing. -/
def resolve (surroundings : List (String × String)) (bindings : List (String × Option String)) :
    List (String × Option String) :=
  bindings.foldl (fun known (name, value) =>
    let meaning := fun reference =>
      match known.lookup reference with
      | some value => some (value.getD "")
      | none => surroundings.reverse.lookup reference
    define name (value.map fun text => String.ofList (expand meaning text.toList)) known) []

/-- What a text says. A mark of the byte order at its start is not part of it. -/
def read (surroundings : List (String × String)) (text : String) : Contents :=
  let characters := match text.toList with
    | '\ufeff' :: rest => unifyLineEnds rest
    | characters => unifyLineEnds characters
  let found := bindings (characters.length + 1) 1 characters
  { entries := resolve surroundings (found.filterMap Except.toOption)
    skipped := found.filterMap fun entry =>
      match entry with
      | .ok _ => none
      | .error number => some number }

example : read [] "A='x' # note\nexport B = \x24\x7bA\x7dy\n\n= z\nC\nD= # none" =
    ⟨[("A", some "x"), ("B", some "xy"), ("C", none), ("D", some "")], [3]⟩ := by
  decide +kernel

end Montage.VariableFile
