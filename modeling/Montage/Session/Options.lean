import Montage.SessionError
import Montage.Text.Digit
import Montage.Transition

/-!
# Options of the command line

An option is spelled in full, or by the first characters of its name if no other option begins with
them. A value follows its option as the next argument, or after an equals sign in the same one. The
last value of an option counts. Two dashes after the equals sign are no value: the option is then
given, but with nothing. Arguments that belong to no option are refused, but only after those before
them have been seen to; asking for help ends the reading at once.
-/

namespace Montage

/-- What an option is given. -/
inductive OptionValue where
  | text (value : String)
  | nothing
deriving DecidableEq, Repr

namespace OptionValue

/-- The option value that stands after an equals sign. -/
def ofAttached (attached : String) : OptionValue :=
  if attached = "--" then .nothing else .text attached

def text? : OptionValue → Option String
  | .text value => some value
  | .nothing => none

end OptionValue

structure Options where
  config : OptionValue := .text "config.json"
  projectsDirectory : Option OptionValue := none
  project : Option OptionValue := none
  episode : Option OptionValue := none
  output : Option OptionValue := none
  transition : Option OptionValue := none
  videoCodec : Option OptionValue := none
  logLevel : Option OptionValue := none
  dryRun : Bool := false
  withoutScript : Bool := false
  withoutCopy : Bool := false
deriving DecidableEq, Repr

inductive OptionName where
  | help
  | config
  | projectsDirectory
  | project
  | episode
  | output
  | transition
  | videoCodec
  | dryRun
  | withoutScript
  | withoutCopy
  | logLevel
deriving DecidableEq, Repr

namespace OptionName

/-- The spellings of the options that have two dashes. -/
def spellings : List (String × OptionName) :=
  [("--help", .help), ("--config", .config), ("--projects-dir", .projectsDirectory),
    ("--project", .project), ("--episode", .episode), ("--output", .output),
    ("--transition", .transition), ("--encoder", .videoCodec), ("--dry-run", .dryRun),
    ("--no-script", .withoutScript), ("--no-copy", .withoutCopy), ("--log-level", .logLevel)]

/-- The option of a full spelling. -/
def ofSpelling? (spelling : String) : Option OptionName :=
  if spelling = "-h" then some .help else spellings.lookup spelling

/-- The options whose spellings begin with some characters. -/
def beginningWith (start : List Char) : List OptionName :=
  spellings.filterMap fun (spelling, option) =>
    if start.isPrefixOf spelling.toList then some option else none

/-- The video codecs that can be chosen. -/
def videoCodecs : List String :=
  ["h264_nvenc", "hevc_nvenc", "libx264", "libx265"]

/-- The values that an option takes; none where it takes any. -/
def choices? : OptionName → Option (List String)
  | .transition => some (Transition.all.map (·.name))
  | .videoCodec => some videoCodecs
  | _ => none

/-- Whether an option takes a value. Nothing is not looked for among the choices. -/
def admits (option : OptionName) (value : OptionValue) : Bool :=
  match option.choices?, value with
  | some choices, .text value => choices.contains value
  | _, _ => true

end OptionName

/-- What an argument is, seen alone. -/
inductive Argument where
  /-- An option, with the value that stands in the same argument. -/
  | named (option : OptionName) (attached : Option String)
  | value (value : String)
  /-- What looks like an option and is none. -/
  | unknown
deriving DecidableEq, Repr

namespace Argument

/-- A negative number is a value, though it begins with a dash. The end of a line may follow it. -/
def isNegativeNumeral (text : List Char) : Bool :=
  let line := if text.getLast? = some '\n' then text.dropLast else text
  match line with
  | '-' :: body =>
    let whole := body.takeWhile Text.isDecimalDigit
    match body.dropWhile Text.isDecimalDigit with
    | [] => !whole.isEmpty
    | '.' :: fraction => !fraction.isEmpty && fraction.all Text.isDecimalDigit
    | _ => false
  | _ => false

/-- A text cut at its first equals sign; the second part is none where there is no such sign. -/
def splitAtEquals (text : List Char) : List Char × Option String :=
  match text.span (· != '=') with
  | (start, _ :: rest) => (start, some (String.ofList rest))
  | (start, []) => (start, none)

/-- Whether the characters after the short spelling of help only repeat its letter, after an equals
sign or without one. -/
def repeatsHelp (text : List Char) : Bool :=
  let letters := match text with
    | '=' :: letters => letters
    | letters => letters
  !letters.isEmpty && letters.all (· == 'h')

/-- What an argument is that begins with a dash and is no full spelling. -/
def ofDashed (text : List Char) : Except OptionsStop Argument :=
  match text with
  | '-' :: 'h' :: rest =>
    .ok (.named .help (if repeatsHelp rest then none else some (String.ofList rest)))
  | '-' :: '-' :: _ =>
    let (start, attached) := splitAtEquals text
    match OptionName.ofSpelling? (String.ofList start), OptionName.beginningWith start with
    | some option, _ | none, [option] => .ok (.named option attached)
    | none, [] => .ok plain
    | none, _ => .error .usage
  | _ => .ok plain
where
  plain : Argument :=
    if isNegativeNumeral text || text.contains ' ' then .value (String.ofList text) else .unknown

/-- What an argument is. An option that is named by characters of more than one is refused. -/
def ofText (text : String) : Except OptionsStop Argument :=
  match text.toList with
  | '-' :: next :: rest =>
    match OptionName.ofSpelling? text with
    | some option => .ok (.named option none)
    | none => ofDashed ('-' :: next :: rest)
  | _ => .ok (.value text)

end Argument

namespace Options

/-- What the arguments are. Two dashes alone end the options. -/
def classify : List String → Except OptionsStop (List Argument)
  | [] => .ok []
  | "--" :: rest => .ok (.unknown :: rest.map .value)
  | text :: rest => do return (← Argument.ofText text) :: (← classify rest)

/-- The options with the value of one of them. -/
def setValue (options : Options) (option : OptionName) (value : OptionValue) :
    Except OptionsStop Options :=
  if option.admits value then
    match option with
    | .config => .ok { options with config := value }
    | .projectsDirectory => .ok { options with projectsDirectory := some value }
    | .project => .ok { options with project := some value }
    | .episode => .ok { options with episode := some value }
    | .output => .ok { options with output := some value }
    | .transition => .ok { options with transition := some value }
    | .videoCodec => .ok { options with videoCodec := some value }
    | .logLevel => .ok { options with logLevel := some value }
    | .help | .dryRun | .withoutScript | .withoutCopy => .error .usage
  else .error .usage

/-- The options with one that has no value; none if the option takes a value. -/
def setFlag? (options : Options) : OptionName → Option (Except OptionsStop Options)
  | .help => some (.error .help)
  | .dryRun => some (.ok { options with dryRun := true })
  | .withoutScript => some (.ok { options with withoutScript := true })
  | .withoutCopy => some (.ok { options with withoutCopy := true })
  | _ => none

/-- The options of classified arguments. Once an argument belongs to no option, the rest is still
read, and then refused. -/
def gather (options : Options) (surplus : Bool) : List Argument → Except OptionsStop Options
  | [] => if surplus then .error .usage else .ok options
  | .named option (some attached) :: rest => do
    gather (← options.setValue option (.ofAttached attached)) surplus rest
  | .named option none :: rest =>
    match options.setFlag? option with
    | some outcome => do gather (← outcome) surplus rest
    | none =>
      match rest with
      | .value value :: rest => do gather (← options.setValue option (.text value)) surplus rest
      | _ => .error .usage
  | _ :: rest => gather options true rest

/-- The options of a command line. -/
def read (arguments : List String) : Except OptionsStop Options := do
  gather {} false (← classify arguments)

example : read ["--proj=x", "--dry"] = .error .usage := rfl
example : read ["--projects=x", "--dry", "--ep", "-1"] =
    .ok { projectsDirectory := some (.text "x"), episode := some (.text "-1"), dryRun := true } :=
  rfl
example : read ["--project=--"] = .ok { project := some .nothing } := rfl
example : read ["x", "--help"] = .error .help := rfl
example : read ["-hx"] = .error .usage := rfl

end Options

end Montage
