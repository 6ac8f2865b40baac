import Montage.Encoder.Progress
import Montage.Timecode

/-!
# The progress line

One line shows how far a run is: the percent with one decimal place, the time that is done and the
total. It begins with a carriage return, so that every line is written over the one before it.
-/

namespace Montage.ProgressLine

/-- The text of a percent; an absent one is zero. -/
def percentText (percent : Value) : Except Defect String :=
  let places := fun x : Binary64 => String.ofList (x.fixedPlaces 1)
  if percent.isPresent then
    match percent with
    | .text _ => .error .badValue
    | value => do return places (← (← value.number).toReal)
  else .ok (places .zero)

/-- The progress line; an absent total is zero. -/
def text (percent outTime total : Value) : Except Defect String := do
  let percent ← percentText percent
  let done ← Timecode.format outTime
  let whole ← Timecode.format (total.orElse (.int 0))
  return "\rExportando > " ++ percent ++ "% (" ++ done ++ " / " ++ whole ++ ")"

/-- The progress line of a report. -/
def ofReport (report : ProgressReport) : Except Defect String :=
  text ((report.percent.map Value.real).getD .null) (.real report.outTime) report.total

end Montage.ProgressLine
