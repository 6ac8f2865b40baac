import Montage.Edl.Project

/-!
# Project scripts

A project directory may hold a script that changes every project before it is compiled. What the
content of a script means is a parameter of whoever uses it; `Script.known` understands scripts of
a few fixed forms.
-/

namespace Montage

/-- A change of a project before it is compiled, which may fail. -/
abbrev ProjectTransform := Project → Except Failure Project

/-- The meaning of scripts: the change that the content of a file defines, if it defines one. A
script may fail before it has defined anything. -/
abbrev ScriptReader := FileContent → Except Failure (Option ProjectTransform)

namespace Script

/-- The text of a script that replaces the cuts by the value of an expression. -/
def replacingCuts (expression : String) : String :=
  "import dataclasses\ndef transform(project):\n" ++
    "    return dataclasses.replace(project, cuts=" ++ expression ++ ")\n"

/-- The script that changes nothing, and those that keep the first cut, no cut, or all cuts in
reverse order. -/
def changeOf? (text : String) : Option ProjectTransform :=
  if text = "def transform(project):\n    return project\n" then some .ok
  else if text = replacingCuts "project.cuts[:1]" then
    some fun project => .ok { project with cuts := project.cuts.take 1 }
  else if text = replacingCuts "[]" then some fun project => .ok { project with cuts := [] }
  else if text = replacingCuts "project.cuts[::-1]" then
    some fun project => .ok { project with cuts := project.cuts.reverse }
  else none

/-- Understands texts of a few fixed forms. -/
def known : ScriptReader
  | .text text => .ok (changeOf? text)
  | .binary => .error (.store .notText)

end Script

end Montage
