import Montage.Encoder.Settings
import Montage.Settings.Lenient
import Montage.Settings.VariableRules

/-!
# Settings

Settings come from several layers: a document with what the caller gives besides, the variables of
the surroundings, files of variables, and files of one variable each. The first layer that names a
setting supplies it, and a setting that none names has its default. All settings with a value that
they do not take are reported together. How settings are made of their sources is a parameter of
whoever uses it; `SettingsSources.layered` reads all these layers.
-/

namespace Montage

structure Settings where
  projectsDirectory : String := ""
  encoderPath : Option String := none
  transition : String := "fade"
  outputName : String := "output.mp4"
  timeLimit : Option Binary64 := none
  logFile : String := "edl_render.log"
  logLevel : String := "INFO"
  videoCodec : String := "h264_nvenc"
  preset : Option String := none
  quality : Int := 18
  pixelFormat : String := "yuv420p"
  frameRate : Int := 60
  audioCodec : String := "aac"
  audioBitrate : String := "320k"
  hardware : Option String := none
deriving DecidableEq

/-- Reads settings, and gathers the names of those whose values are not taken. -/
abbrev SettingsReading := StateM (List String)

namespace Settings

/-- The first value that is given for a name. -/
def given? (layers : List SettingsLayer) (name : String) : Option Value :=
  layers.findSome? fun layer => layer.value? name

/-- One setting of the layers. -/
def reading {α : Type} (layers : List SettingsLayer) (take : Value → Option α) (name : String)
    (default : α) : SettingsReading α := fun refused =>
  match given? layers name with
  | none => (default, refused)
  | some value =>
    match take value with
    | some taken => (taken, refused)
    | none => (default, refused ++ [name])

/-- All settings of the layers. -/
def readings (layers : List SettingsLayer) : SettingsReading Settings := do
  let text := reading layers Lenient.text?
  let textOrNull := reading layers (Lenient.orNull Lenient.text?)
  let whole := reading layers Lenient.whole?
  let default : Settings := {}
  return {
    projectsDirectory := ← text "projects_directory" default.projectsDirectory
    encoderPath := ← textOrNull "ffmpeg_path" default.encoderPath
    transition := ← text "transition" default.transition
    outputName := ← text "output_name" default.outputName
    timeLimit := ← reading layers (Lenient.orNull Lenient.real?) "render_timeout" default.timeLimit
    logFile := ← text "log_file" default.logFile
    logLevel := ← text "log_level" default.logLevel
    videoCodec := ← text "vcodec" default.videoCodec
    preset := ← textOrNull "preset" default.preset
    quality := ← whole "cq" default.quality
    pixelFormat := ← text "pix_fmt" default.pixelFormat
    frameRate := ← whole "framerate" default.frameRate
    audioCodec := ← text "acodec" default.audioCodec
    audioBitrate := ← text "audio_bitrate" default.audioBitrate
    hardware := ← textOrNull "hwaccel" default.hardware }

/-- The settings of the layers, if every one has a value that it takes. -/
def ofLayers (layers : List SettingsLayer) : Except Failure Settings :=
  match (readings layers).run [] with
  | (settings, []) => .ok settings
  | (_, refused) => .error (.settings (Catalogue.sorted refused))

/-- The layer of a document; a path without one stands for an empty document. -/
def documentLayer (tree : FileTree) (path : Path) : Except Failure SettingsLayer := do
  if ← Catalogue.onPath path (tree.hasEntry path) then
    match ← Catalogue.readDocument tree path with
    | .object members => return members
    | _ => throw (.defect .noMembers)
  else return []

/-- The layer of a document with the entries that a caller gives. A null among these says
nothing. -/
def givenLayer (tree : FileTree) (document : Path) (overrides : SettingsLayer) :
    Except Failure SettingsLayer := do
  return (← documentLayer tree document).updated (overrides.filter fun entry => entry.2 != .null)

/-- Whether a path as it is written leads to something. One that ends like that of a directory
must lead to one. -/
def leadsSomewhere (tree : FileTree) (text : String) : Bool :=
  match tree.find (.ofString text) with
  | .ok .directory => true
  | .ok (.file _) => !(text.endsWith "/" || text.endsWith "/.")
  | .error _ => false

/-- The encoder's program: that of the settings if it exists, or the one that `found` says the
search path has. -/
def program (settings : Settings) (tree : FileTree) (found : Option String) : String :=
  let searched := match found with
    | some path => if path = "" then "ffmpeg" else path
    | none => "ffmpeg"
  match settings.encoderPath with
  | some path =>
    if path ≠ "" ∧ leadsSomewhere tree path then (tree.absolute (.ofString path)).toString
    else searched
  | none => searched

/-- What the encoder is told. -/
def encoder (settings : Settings) (tree : FileTree) (found : Option String) : EncoderSettings := {
  videoCodec := settings.videoCodec
  preset := settings.preset
  quality := .int settings.quality
  pixelFormat := settings.pixelFormat
  frameRate := .int settings.frameRate
  audioCodec := settings.audioCodec
  audioBitrate := settings.audioBitrate
  hardware := settings.hardware
  program := settings.program tree found }

end Settings

/-- What settings are read from, besides files: what the caller and its document give, and the
variables of the surroundings. -/
structure SettingsSources where
  given : SettingsLayer
  environment : List (String × String)
deriving DecidableEq

/-- How settings are made of their sources in a file tree: what the user is told on the way, and
the settings. -/
abbrev SettingsReader := FileTree → SettingsSources → List String × Except Failure Settings

namespace SettingsSources

/-- The sources of a run, with what the caller gives. -/
def read (tree : FileTree) (environment : List (String × String)) (document : Path)
    (overrides : SettingsLayer) : Except Failure SettingsSources := do
  return ⟨← Settings.givenLayer tree document overrides, environment⟩

/-- The variables of the files that the sources name, and the numbers of the lines in these files
that are not understood. -/
def defined (sources : SettingsSources) (tree : FileTree) :
    Except Failure (Variables × List Nat) := do
  (VariableRules.ofLayer sources.given).readFiles tree sources.environment
    (← VariableRules.files sources.given)

/-- The layers of the sources, the first one counting most. -/
def layers (sources : SettingsSources) (tree : FileTree) : Except Failure (List SettingsLayer) := do
  let rules := VariableRules.ofLayer sources.given
  let (defined, _) ← sources.defined tree
  let surrounding := sources.environment.map fun (name, value) => (name, some value)
  let outer ← rules.layer (rules.gather [] surrounding)
  let inner ← rules.layer defined
  let held ← rules.heldLayer tree (← VariableRules.directories tree sources.given)
  return [sources.given, outer, inner, held]

/-- The settings that the sources give. -/
def settings (sources : SettingsSources) (tree : FileTree) : Except Failure Settings := do
  Settings.ofLayers (← sources.layers tree)

/-- What the user is told of a line that is skipped in a file of variables. -/
def skippedLine (number : Nat) : String :=
  "python-dotenv could not parse statement starting at line " ++ decimalText number ++ "\n"

/-- What the user is told of the files of variables. -/
def told (sources : SettingsSources) (tree : FileTree) : List String :=
  match sources.defined tree with
  | .ok (_, skipped) => skipped.map skippedLine
  | .error _ => []

/-- Reads the layers of the sources. -/
def layered : SettingsReader := fun tree sources => (sources.told tree, sources.settings tree)

end SettingsSources

end Montage
