import Montage.Document.Value
import Montage.Numeric.Shortest
import Montage.Text.Numeral
import Montage.Text.Quoted

/-!
# Values inside messages

How a value is written in a message to the user: texts between quotes, truth values capitalised,
lists and objects with their items between brackets. A text that stands alone is written bare.
A whole number with too many digits cannot be written, nor can a value that holds one
(`Value.Overlong`); a message that would name it is a defect instead.
-/

namespace Montage.Value

def spelledBool (b : Bool) : String :=
  if b then "True" else "False"

mutual

/-- A value as it stands inside a message. -/
def spelled : Value → String
  | .null => "None"
  | .bool b => spelledBool b
  | .int n => decimalText n
  | .real x => x.text
  | .text s => Text.quoted s
  | .list items => "[" ++ itemsNotation items ++ "]"
  | .object members => "\x7b" ++ membersNotation members ++ "\x7d"

def itemsNotation : List Value → String
  | [] => ""
  | [value] => spelled value
  | value :: rest => spelled value ++ ", " ++ itemsNotation rest

def membersNotation : List (String × Value) → String
  | [] => ""
  | [(name, value)] => Text.quoted name ++ ": " ++ spelled value
  | (name, value) :: rest =>
    Text.quoted name ++ ": " ++ spelled value ++ ", " ++ membersNotation rest

end

mutual

/-- Whether a value can be spelled: no whole number in it has more digits than can be written. -/
def isSpellable : Value → Bool
  | .int n => n.natAbs < Nat.pow 10 Text.maxDigits
  | .list items => areSpellable items
  | .object members => haveSpellable members
  | _ => true

def areSpellable : List Value → Bool
  | [] => true
  | value :: rest => isSpellable value && areSpellable rest

def haveSpellable : List (String × Value) → Bool
  | [] => true
  | (_, value) :: rest => isSpellable value && haveSpellable rest

end

/-- A value as it stands in running text: a text bare, any other value as in `spelled`. -/
def bare : Value → String
  | .text s => s
  | value => spelled value

/-- A value as running text of its own; one that cannot be spelled is refused. -/
def bareText (value : Value) : Except Defect String :=
  if value.isSpellable then .ok value.bare else .error .badValue

/-! ## What cannot be spelled -/

/-- A value that is a whole number with too many digits, or holds one. -/
inductive Overlong : Value → Prop
  | int {n : Int} : Text.TooLong n → Overlong (.int n)
  | item {items : List Value} {value : Value} : value ∈ items → Overlong value →
      Overlong (.list items)
  | member {members : List (String × Value)} {name : String} {value : Value} :
      (name, value) ∈ members → Overlong value → Overlong (.object members)

theorem isSpellable_int_eq_false_iff {n : Int} :
    (Value.int n).isSpellable = false ↔ Text.TooLong n := by
  rw [isSpellable, decide_eq_false_iff_not, Nat.not_lt, Text.TooLong]

mutual

theorem overlong_of_not_isSpellable (value : Value) (long : value.isSpellable = false) :
    value.Overlong := by
  cases value with
  | int n => exact .int (isSpellable_int_eq_false_iff.mp long)
  | list items =>
    rw [isSpellable] at long
    obtain ⟨_, present, overlong⟩ := overlong_of_not_areSpellable items long
    exact .item present overlong
  | object members =>
    rw [isSpellable] at long
    obtain ⟨_, _, present, overlong⟩ := overlong_of_not_haveSpellable members long
    exact .member present overlong
  | null | bool _ | real _ | text _ => simp [isSpellable] at long

theorem overlong_of_not_areSpellable (items : List Value) (long : areSpellable items = false) :
    ∃ value ∈ items, value.Overlong := by
  match items with
  | [] => cases long
  | value :: rest =>
    rcases Bool.and_eq_false_iff.mp long with here | later
    · exact ⟨value, List.mem_cons_self, overlong_of_not_isSpellable value here⟩
    · obtain ⟨found, present, overlong⟩ := overlong_of_not_areSpellable rest later
      exact ⟨found, List.mem_cons_of_mem value present, overlong⟩

theorem overlong_of_not_haveSpellable (members : List (String × Value))
    (long : haveSpellable members = false) :
    ∃ name value, (name, value) ∈ members ∧ value.Overlong := by
  match members with
  | [] => cases long
  | (name, value) :: rest =>
    rcases Bool.and_eq_false_iff.mp long with here | later
    · exact ⟨name, value, List.mem_cons_self, overlong_of_not_isSpellable value here⟩
    · obtain ⟨found, held, present, overlong⟩ := overlong_of_not_haveSpellable rest later
      exact ⟨found, held, List.mem_cons_of_mem _ present, overlong⟩

end

theorem isSpellable_of_mem {items : List Value} (all : areSpellable items = true) {value : Value}
    (present : value ∈ items) : value.isSpellable = true := by
  induction items with
  | nil => cases present
  | cons first rest ih =>
    obtain ⟨here, later⟩ := Bool.and_eq_true_iff.mp all
    rcases List.mem_cons.mp present with rfl | inRest
    · exact here
    · exact ih later inRest

theorem isSpellable_of_member {members : List (String × Value)}
    (all : haveSpellable members = true) {name : String} {value : Value}
    (present : (name, value) ∈ members) : value.isSpellable = true := by
  induction members with
  | nil => cases present
  | cons first rest ih =>
    obtain ⟨here, later⟩ := Bool.and_eq_true_iff.mp all
    rcases List.mem_cons.mp present with rfl | inRest
    · exact here
    · exact ih later inRest

/-- Just the values that hold a number which is too long cannot be spelled. -/
theorem isSpellable_eq_false_iff {value : Value} : value.isSpellable = false ↔ value.Overlong := by
  refine ⟨overlong_of_not_isSpellable value, fun overlong => ?_⟩
  induction overlong with
  | int long => exact isSpellable_int_eq_false_iff.mpr long
  | item present _ ih =>
    refine Bool.eq_false_iff.mpr fun spellable => ?_
    exact Bool.false_ne_true (ih.symm.trans (isSpellable_of_mem spellable present))
  | member present _ ih =>
    refine Bool.eq_false_iff.mpr fun spellable => ?_
    exact Bool.false_ne_true (ih.symm.trans (isSpellable_of_member spellable present))

theorem isSpellable_iff {value : Value} : value.isSpellable = true ↔ ¬ value.Overlong := by
  rw [← isSpellable_eq_false_iff, Bool.not_eq_false]

end Montage.Value
