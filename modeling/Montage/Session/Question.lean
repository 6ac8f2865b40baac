import Montage.Failure

/-!
# Questions

A question lists its options and asks for one of them. The answer is an option itself or, where the
options are numbered, the position of one; an option that is spelled like a position is still taken
for itself. There is no other outcome than an option and a refusal.
-/

namespace Montage

structure Question where
  prompt : String
  options : List String
  numbered : Bool := true
deriving DecidableEq, Repr

namespace Question

open Text

/-- The line of the option at a position. -/
def optionLine (question : Question) (position : Nat) (option : String) : String :=
  if question.numbered then "  [" ++ decimalText position ++ "] " ++ option ++ "\n"
  else "  " ++ option ++ "\n"

/-- What is shown before the answer is read. -/
def text (question : Question) : String :=
  let lines := question.options.mapIdx fun index option => question.optionLine (index + 1) option
  String.join lines ++ question.prompt ++ " > "

/-- The number that an answer denotes, where all its characters look like digits. -/
def number? (answer : List Char) : Except Defect (Option Int) :=
  if !answer.isEmpty && answer.all isDigitLike then
    match integer? answer with
    | some number => .ok (some number)
    | none => .error .badValue
  else .ok none

/-- The option at a position, counted from one. -/
def optionAt? (question : Question) (position : Int) : Option String :=
  if 1 ≤ position then question.options[position.toNat - 1]? else none

/-- The option that an answer chooses, blanks around it being ignored. -/
def select (question : Question) (answer : String) : Except Failure String := do
  let answer := strip answer
  let refused : Except Failure String := .error (.session (.choice (.notAnOption answer)))
  if question.options.contains answer then return answer
  else if question.numbered then
    match ← number? answer.toList with
    | some position => (question.optionAt? position).elim refused pure
    | none => refused
  else refused

/-- The first line of an input, without its end, and what follows it; none at the end. -/
def line? (input : List Char) : Option (String × List Char) :=
  if input.isEmpty then none
  else some (String.ofList (input.takeWhile (· != '\n')), (input.dropWhile (· != '\n')).drop 1)

/-- An option that is given by its name is chosen, whatever position it is spelled like. -/
theorem select_of_mem {question : Question} {answer : String}
    (listed : strip answer ∈ question.options) : question.select answer = .ok (strip answer) := by
  simp [select, listed]
  rfl

example : (Question.mk "p" ["a", "2"] true).optionAt? 2 = some "2" := rfl

end Question

end Montage
