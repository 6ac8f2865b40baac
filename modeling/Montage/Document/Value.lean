import Montage.Defect
import Montage.Numeric.Binary64

/-!
# Document values

The values that an edit list can carry in any place. Members of an object keep the order in which
they were written, and no name occurs twice. Nothing about their kinds is checked here: an
operation that meets a kind it does not take reports a `Defect`.
-/

namespace Montage

/-- A value of a document. Whole numbers have any size. -/
inductive Value where
  | null
  | bool (value : Bool)
  | int (value : Int)
  | real (value : Binary64)
  | text (value : String)
  | list (items : List Value)
  | object (members : List (String × Value))

instance : Inhabited Value := ⟨.null⟩

mutual

def Value.decEq : (a b : Value) → Decidable (a = b)
  | .null, .null => isTrue rfl
  | .bool a, .bool b => if same : a = b then isTrue (by rw [same]) else isFalse (by simp [same])
  | .int a, .int b => if same : a = b then isTrue (by rw [same]) else isFalse (by simp [same])
  | .real a, .real b => if same : a = b then isTrue (by rw [same]) else isFalse (by simp [same])
  | .text a, .text b => if same : a = b then isTrue (by rw [same]) else isFalse (by simp [same])
  | .list a, .list b =>
    match Value.decEqItems a b with
    | isTrue same => isTrue (by rw [same])
    | isFalse differ => isFalse (by simp [differ])
  | .object a, .object b =>
    match Value.decEqMembers a b with
    | isTrue same => isTrue (by rw [same])
    | isFalse differ => isFalse (by simp [differ])
  | .null, .bool _ | .null, .int _ | .null, .real _ | .null, .text _ | .null, .list _
  | .null, .object _ | .bool _, .null | .bool _, .int _ | .bool _, .real _ | .bool _, .text _
  | .bool _, .list _ | .bool _, .object _ | .int _, .null | .int _, .bool _ | .int _, .real _
  | .int _, .text _ | .int _, .list _ | .int _, .object _ | .real _, .null | .real _, .bool _
  | .real _, .int _ | .real _, .text _ | .real _, .list _ | .real _, .object _ | .text _, .null
  | .text _, .bool _ | .text _, .int _ | .text _, .real _ | .text _, .list _ | .text _, .object _
  | .list _, .null | .list _, .bool _ | .list _, .int _ | .list _, .real _ | .list _, .text _
  | .list _, .object _ | .object _, .null | .object _, .bool _ | .object _, .int _
  | .object _, .real _ | .object _, .text _ | .object _, .list _ => isFalse (by simp)

def Value.decEqItems : (a b : List Value) → Decidable (a = b)
  | [], [] => isTrue rfl
  | [], _ :: _ => isFalse (by simp)
  | _ :: _, [] => isFalse (by simp)
  | a :: as, b :: bs =>
    match Value.decEq a b, Value.decEqItems as bs with
    | isTrue same, isTrue rest => isTrue (by rw [same, rest])
    | isFalse differ, _ => isFalse (by simp [differ])
    | _, isFalse differ => isFalse (by simp [differ])

def Value.decEqMembers : (a b : List (String × Value)) → Decidable (a = b)
  | [], [] => isTrue rfl
  | [], _ :: _ => isFalse (by simp)
  | _ :: _, [] => isFalse (by simp)
  | (k, a) :: as, (l, b) :: bs =>
    if name : k = l then
      match Value.decEq a b, Value.decEqMembers as bs with
      | isTrue same, isTrue rest => isTrue (by rw [name, same, rest])
      | isFalse differ, _ => isFalse (by simp [differ])
      | _, isFalse differ => isFalse (by simp [differ])
    else isFalse (by simp [name])

end

instance : DecidableEq Value := Value.decEq

namespace Value

/-- Null, false, zero and whatever is empty count as absent. Not-a-number is present. -/
def isPresent : Value → Bool
  | .null => false
  | .bool value => value
  | .int value => value != 0
  | .real value => !value.isZero
  | .text value => value != ""
  | .list items => !items.isEmpty
  | .object members => !members.isEmpty

/-- A value, or another one where it counts as absent. -/
def orElse (value other : Value) : Value :=
  if value.isPresent then value else other

/-- What a value consists of: the items of a list, the names of an object, the characters of a
text. -/
def parts : Value → Except Defect (List Value)
  | .list items => .ok items
  | .object members => .ok (members.map fun entry => .text entry.1)
  | .text value => .ok (value.toList.map fun c => .text (String.singleton c))
  | _ => .error .wrongKind

/-- The member of a list of members with a name. -/
def lookup (members : List (String × Value)) (name : String) : Option Value :=
  (members.find? fun entry => entry.1 == name).map (·.2)

/-- A member of an object; null where it has none of that name. -/
def member (value : Value) (name : String) : Except Defect Value :=
  match value with
  | .object members => .ok ((lookup members name).getD .null)
  | _ => .error .noMembers

/-- A member of an object, or the given value where it has none of that name. -/
def memberD (value : Value) (name : String) (default : Value) : Except Defect Value :=
  match value with
  | .object members => .ok ((lookup members name).getD default)
  | _ => .error .noMembers

/-- Members with one of them set: a name that is there keeps its place. -/
def setMember (members : List (String × Value)) (name : String) (value : Value) :
    List (String × Value) :=
  if members.any (·.1 == name) then
    members.map fun entry => if entry.1 == name then (name, value) else entry
  else members ++ [(name, value)]

end Value

end Montage
