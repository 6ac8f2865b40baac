import Montage.Encoder.Settings
import Montage.Filtergraph.Graph

/-!
# The encoder's command

The command reads every window of the graph as one input, in their order, so that the position of a
window is the number by which the graph refers to it. The output path comes last.
-/

namespace Montage.EncoderCommand

/-- A count of seconds as an argument; it must be in the range of binary64. -/
def secondsArgument (seconds : Int) : Except Defect String := do
  return String.ofList (realParameter (← Number.wholeToReal seconds))

/-- The arguments that read a window. -/
def windowArguments (window : Window) : Except Defect (List String) := do
  return ["-ss", ← secondsArgument window.start, "-t", ← secondsArgument window.duration,
    "-i", window.path.toString]

/-- The program and the arguments that come before the inputs. -/
def opening (settings : EncoderSettings) : List String :=
  [settings.program, "-y"] ++
    match settings.hardware with
    | some device => if device = "" then [] else ["-hwaccel", device]
    | none => []

/-- The arguments after the graph, up to the output path. -/
def closing (settings : EncoderSettings) (output : Path) : Except Defect (List String) := do
  let quality ← settings.quality.bareText
  let frameRate ← settings.frameRate.bareText
  return ["-c:v", settings.videoCodec, "-preset", settings.videoPreset, settings.qualityOption,
    quality, "-pix_fmt", settings.pixelFormat, "-r", frameRate, "-c:a", settings.audioCodec,
    "-b:a", settings.audioBitrate, "-shortest", output.toString]

/-- The whole command for a graph. -/
def build (graph : Graph) (output : Path) (settings : EncoderSettings) :
    Except Failure (List String) := do
  let windows ← liftM (graph.inputs.mapM windowArguments)
  let filters ← graph.text
  let (video, audio) ← graph.terminalLabels
  let last ← closing settings output
  return opening settings ++ windows.flatten ++ ["-filter_complex", filters,
    "-map", Graph.bracketed video, "-map", Graph.bracketed audio] ++ last

/-- A command as one line. -/
def line (command : List String) : String :=
  " ".intercalate command

end Montage.EncoderCommand
