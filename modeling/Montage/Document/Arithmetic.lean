import Montage.Document.Value
import Montage.Numeric.Number

/-!
# Arithmetic on document values

Numbers take part in arithmetic and comparison, and so do truth values, which count as one and
zero. Any other kind is refused.
-/

namespace Montage.Value

def ofNumber : Number → Value
  | .whole n => .int n
  | .real x => .real x

/-- The number that a value counts as. -/
def number? : Value → Option Number
  | .bool b => some (.whole (if b then 1 else 0))
  | .int n => some (.whole n)
  | .real x => some (.real x)
  | _ => none

def number (value : Value) : Except Defect Number :=
  match value.number? with
  | some x => .ok x
  | none => .error .wrongKind

def add (a b : Value) : Except Defect Value := do
  return ofNumber (← (← a.number).add (← b.number))

def sub (a b : Value) : Except Defect Value := do
  return ofNumber (← (← a.number).sub (← b.number))

def lt (a b : Value) : Except Defect Bool := do
  return (← a.number).lt (← b.number)

def le (a b : Value) : Except Defect Bool := do
  return (← a.number).le (← b.number)

/-- The first value unless the second is greater. -/
def max (a b : Value) : Except Defect Value := do
  return if ← a.lt b then b else a

/-- The sum of values, added from the left to zero. -/
def sum (values : List Value) : Except Defect Value :=
  values.foldlM add (.int 0)

/-- The largest count of repetitions of a text or a list. -/
def maxRepeat : Nat := Nat.pow 2 63

/-- A step taken `count` times. A text or a list could be repeated, but not so often, and what it
gives is no number. -/
def multiple (step : Value) (count : Int) : Except Defect Number :=
  match step with
  | .text _ | .list _ =>
    if -maxRepeat ≤ count ∧ count < maxRepeat then .error .wrongKind else .error .overflow
  | _ => do (← step.number).mul (.whole count)

/-- A value less a step taken `count` times. -/
def lessMultiple (value step : Value) (count : Int) : Except Defect Value := do
  let steps ← step.multiple count
  return ofNumber (← (← value.number).sub steps)

/-- The items of a list before a position; a negative position counts from the end. -/
def takeBefore {α : Type} (items : List α) (position : Int) : List α :=
  if position < 0 then items.take (items.length + position).toNat else items.take position.toNat

/-- The item of a list at a position; a negative position counts from the end. -/
def itemAt? {α : Type} (items : List α) (position : Int) : Option α :=
  if position < 0 then
    if -position ≤ items.length then items[(items.length + position).toNat]? else none
  else items[position.toNat]?

mutual

/-- Whether two values are equal: numbers by their value whatever their kind, objects whatever the
order of their members. -/
def same : (a b : Value) → Bool
  | .list as, .list bs => sameItems as bs
  | .object as, .object bs => as.length == bs.length && sameMembers as bs
  | .text a, .text b => a == b
  | .null, .null => true
  | .bool a, b => sameNumber (some (.whole (if a then 1 else 0))) b.number?
  | .int a, b => sameNumber (some (.whole a)) b.number?
  | .real a, b => sameNumber (some (.real a)) b.number?
  | _, _ => false

def sameItems : (as bs : List Value) → Bool
  | [], [] => true
  | a :: as, b :: bs => same a b && sameItems as bs
  | _, _ => false

/-- Whether every member of the first list is equal to that of the same name in the second. -/
def sameMembers : (as bs : List (String × Value)) → Bool
  | [], _ => true
  | (name, a) :: as, bs =>
    (match lookup bs name with
      | some b => same a b
      | none => false) && sameMembers as bs

/-- Whether both are numbers and equal. -/
def sameNumber : Option Number → Option Number → Bool
  | some x, some y => x.compare? y == some .eq
  | _, _ => false

end

@[simp] theorem itemAt?_natCast {α : Type} (items : List α) (position : Nat) :
    itemAt? items position = items[position]? := by
  simp [itemAt?, Int.not_lt.mpr (Int.natCast_nonneg position)]

@[simp] theorem number?_ofNumber (x : Number) : (ofNumber x).number? = some x := by
  cases x <;> rfl

theorem number_eq_ok_iff {value : Value} {x : Number} :
    value.number = .ok x ↔ value.number? = some x := by
  unfold number
  cases value.number? <;> simp

@[simp] theorem number_int (n : Int) : number (.int n) = .ok (.whole n) := rfl

@[simp] theorem add_int (m n : Int) : add (.int m) (.int n) = .ok (.int (m + n)) := rfl

@[simp] theorem lt_int (m n : Int) : lt (.int m) (.int n) = .ok (decide (m < n)) := by
  have same : (Number.whole m).lt (.whole n) = decide (m < n) :=
    Bool.eq_iff_iff.mpr ((Number.lt_whole_iff m n).trans decide_eq_true_iff.symm)
  rw [← same]
  rfl

@[simp] theorem le_int (m n : Int) : le (.int m) (.int n) = .ok (decide (m ≤ n)) := by
  have same : (Number.whole m).le (.whole n) = decide (m ≤ n) :=
    Bool.eq_iff_iff.mpr ((Number.le_whole_iff m n).trans decide_eq_true_iff.symm)
  rw [← same]
  rfl

@[simp] theorem lessMultiple_int (m n count : Int) :
    lessMultiple (.int m) (.int n) count = .ok (.int (m - n * count)) := rfl

/-- Whole numbers are added up exactly. -/
theorem foldlM_add_int (first : Int) (values : List Int) :
    (values.map Value.int).foldlM add (.int first) =
      .ok (.int (values.foldl (· + ·) first)) := by
  induction values generalizing first with
  | nil => simp [pure, Except.pure]
  | cons value values ih =>
    rw [List.map_cons, List.foldlM_cons, add_int]
    exact ih (first + value)

theorem sum_int (values : List Int) :
    sum (values.map Value.int) = .ok (.int (values.foldl (· + ·) 0)) :=
  foldlM_add_int 0 values

example : (same (.int 1) (.bool true)) = true := by decide +kernel
example : takeBefore [1, 2, 3] (-1) = [1, 2] := by decide

end Montage.Value
