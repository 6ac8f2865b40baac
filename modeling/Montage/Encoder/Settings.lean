import Montage.Document.Spelling

/-!
# Encoder settings

What the encoder is told besides the graph. Its family decides which preset is used where none is
given, and which option carries the quality.
-/

namespace Montage

structure EncoderSettings where
  container : String := "mp4"
  videoCodec : String := "h264_nvenc"
  preset : Option String := none
  quality : Value := .int 18
  pixelFormat : String := "yuv420p"
  frameRate : Value := .int 60
  audioCodec : String := "aac"
  audioBitrate : String := "320k"
  hardware : Option String := none
  program : String := "ffmpeg"
deriving DecidableEq

/-- Whether one row of characters stands somewhere in another. -/
def occursIn (part : List Char) : List Char → Bool
  | [] => part.isEmpty
  | c :: rest => part.isPrefixOf (c :: rest) || occursIn part rest

namespace EncoderSettings

/-- Whether the codec is of the family that runs on the graphics card. -/
def isHardwareCodec (settings : EncoderSettings) : Bool :=
  occursIn "nvenc".toList settings.videoCodec.toList

/-- The preset that is given, or that of the codec's family. -/
def videoPreset (settings : EncoderSettings) : String :=
  match settings.preset with
  | some preset => if preset = "" then familyPreset else preset
  | none => familyPreset
where
  familyPreset := if settings.isHardwareCodec then "p3" else "medium"

/-- The option that carries the quality. -/
def qualityOption (settings : EncoderSettings) : String :=
  if settings.isHardwareCodec then "-cq" else "-crf"

end EncoderSettings

end Montage
