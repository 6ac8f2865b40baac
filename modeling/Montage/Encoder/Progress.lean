import Montage.Text.Numeral
import Montage.Timecode
import Montage.Timeline

/-!
# Progress of the encoder

The encoder writes its progress as lines `key=value`. The key `progress` ends a block; inside a
block the last value of a key counts. A block gives a report if it says how far the output has
come in a form that can be read. Everything else in it may be missing or unreadable.
-/

namespace Montage

/-- The fields of one block, the latest first. -/
abbrev ProgressBlock := List (String × String)

namespace ProgressBlock

/-- The key whose field ends a block. -/
def endKey : String := "progress"

/-- The last value of a key. -/
def value? (block : ProgressBlock) (key : String) : Option String :=
  block.lookup key

/-- The key and the value of a line, parted at its first equals sign. -/
def field? (line : String) : Option (String × String) :=
  let key := line.toList.takeWhile (· != '=')
  match line.toList.dropWhile (· != '=') with
  | [] => none
  | _ :: value => some (String.ofList key, String.ofList value)

/-- Takes in a line; gives the block that it ends, if it ends one. -/
def feed (block : ProgressBlock) (line : String) : ProgressBlock × Option ProgressBlock :=
  match field? line with
  | none => (block, none)
  | some field =>
    if field.1 = endKey then ([], some (field :: block)) else (field :: block, none)

/-- A line without an equals sign changes nothing. -/
theorem feed_of_no_field {block : ProgressBlock} {line : String} (plain : field? line = none) :
    block.feed line = (block, none) := by
  simp [feed, plain]

end ProgressBlock

/-- How far the encoder has come. -/
structure ProgressReport where
  outTime : Binary64
  speed : Option Binary64
  percent : Option Binary64
  frame : Option Int
  fps : Option Binary64
  bitrate : Option String
  /-- The length that the output is going to have, if it is known. -/
  total : Value
deriving DecidableEq

/-- What a finished block says. -/
inductive ProgressNews where
  /-- It does not tell how far the output has come. -/
  | silent
  /-- It tells so in a form that cannot be read. -/
  | unreadable (mark : String)
  | report (report : ProgressReport)
deriving DecidableEq

namespace ProgressNews

/-- A text without the characters `x` at its end. -/
def withoutTimesSign (text : String) : List Char :=
  (text.toList.reverse.dropWhile (· == 'x')).reverse

/-- The percent that a mark is of the total; none if the total is not known. -/
def percentOf (outTime : Binary64) (total : Value) : Except Failure (Option Binary64) :=
  if total.isPresent then (Timeline.percent (.real outTime) total).map some else .ok none

/-- The report of a block that has come to a time. -/
def reportAt (block : ProgressBlock) (outTime : Binary64) (total : Value) :
    Except Failure ProgressReport := do
  let percent ← percentOf outTime total
  let real := fun key => (block.value? key).bind fun text => Text.real? text.toList
  return {
    outTime := outTime
    speed := Text.real? (withoutTimesSign ((block.value? "speed").getD ""))
    percent := percent
    frame := (block.value? "frame").bind fun text => Text.integer? text.toList
    fps := real "fps"
    bitrate := block.value? "bitrate"
    total := total }

/-- What a block says; a mark of the right form that stands for no time is a failure. -/
def ofBlock (block : ProgressBlock) (total : Value) : Except Failure ProgressNews :=
  match block.value? "out_time" with
  | none => .ok .silent
  | some mark =>
    if mark = "" then .ok .silent
    else match Timecode.parseMark (.text mark) with
      | .error (.edit _) => .ok (.unreadable mark)
      | .error failure => .error failure
      | .ok outTime => (reportAt block outTime total).map .report

end ProgressNews

example : ProgressBlock.field? "fps=30=x" = some ("fps", "30=x") := by decide +kernel
example : ProgressBlock.feed [("frame", "10")] "progress=end" =
    ([], some [("progress", "end"), ("frame", "10")]) := by decide +kernel

end Montage
