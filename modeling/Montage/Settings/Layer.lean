import Montage.Document.Value

/-!
# Layers of settings

A layer gives values to some settings by their names. The case of a name does not matter; of two
names that differ in case only, the first one counts. A layer may also have entries that name no
setting: some of them are rules for reading variables, and all others say nothing.
-/

namespace Montage

/-- The names of all settings. -/
def Settings.names : List String :=
  ["projects_directory", "ffmpeg_path", "transition", "output_name", "render_timeout", "log_file",
    "log_level", "vcodec", "preset", "cq", "pix_fmt", "framerate", "acodec", "audio_bitrate",
    "hwaccel"]

/-- Values by names. -/
abbrev SettingsLayer := List (String × Value)

namespace SettingsLayer

/-- A name in small letters. -/
def smallLetters (name : String) : String :=
  String.map Char.toLower name

/-- The value that a layer gives to a setting. -/
def value? (layer : SettingsLayer) (name : String) : Option Value :=
  (layer.find? fun entry => smallLetters entry.1 == name).map (·.2)

/-- A layer with the entries of another one; a name that is there keeps its place. -/
def updated (layer changes : SettingsLayer) : SettingsLayer :=
  changes.foldl (fun known (name, value) => Value.setMember known name value) layer

/-- A rule that a layer gives under a name; null says nothing. Rules are named exactly. -/
def rule? (layer : SettingsLayer) (name : String) : Option Value :=
  (Value.lookup layer name).bind fun value => if value = .null then none else some value

example : value? [("Cq", .int 7), ("cq", .int 8)] "cq" = some (.int 7) := by decide +kernel

end SettingsLayer

end Montage
