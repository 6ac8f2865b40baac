import Montage.Defect

/-!
# Log records

What the library reports while it works: a level, the part that reports, and a text.
-/

namespace Montage

inductive LogLevel where
  | debug
  | info
  | warning
  | error
deriving DecidableEq, Repr

namespace LogLevel

def rank : LogLevel → Nat
  | .debug => 10
  | .info => 20
  | .warning => 30
  | .error => 40

def name : LogLevel → String
  | .debug => "DEBUG"
  | .info => "INFO"
  | .warning => "WARNING"
  | .error => "ERROR"

/-- A letter in capitals; some letters of other alphabets have plain capitals as well. -/
def capitals (c : Char) : List Char :=
  if c = 'ı' then ['I'] else if c = 'ſ' then ['S']
  else if c = 'ﬅ' ∨ c = 'ﬆ' then ['S', 'T'] else [c.toUpper]

/-- The rank that a level's name asks for, in letters of any case; an unknown name asks for that of
information. The names of a record's form and of the table of forms are known, but not as levels. -/
def rankNamed (name : String) : Except Defect Nat :=
  match String.ofList (name.toList.flatMap capitals) with
  | "CRITICAL" | "FATAL" => .ok 50
  | "ERROR" => .ok error.rank
  | "WARNING" | "WARN" => .ok warning.rank
  | "DEBUG" => .ok debug.rank
  | "NOTSET" => .ok 0
  | "BASIC_FORMAT" => .error .badValue
  | "_STYLES" => .error .wrongKind
  | _ => .ok info.rank

end LogLevel

structure LogRecord where
  level : LogLevel
  reporter : String
  text : String
deriving DecidableEq, Repr

namespace LogRecord

/-- The lines of a record where the reporters belong to a program. -/
def lines (program : String) (record : LogRecord) : List String :=
  let text :=
    program ++ "." ++ record.reporter ++ " - " ++ record.level.name ++ " - " ++ record.text
  text.splitOn "\n"

/-- The records that reach a rank. -/
def atLeast (rank : Nat) (records : List LogRecord) : List LogRecord :=
  records.filter fun record => rank ≤ record.level.rank

end LogRecord

end Montage
