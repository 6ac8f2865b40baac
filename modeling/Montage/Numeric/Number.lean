import Montage.Defect
import Montage.Numeric.Binary64

/-!
# Numbers of two kinds

A quantity is a whole number of any size or a binary64 number. Whole numbers stay whole among
themselves; where the kinds meet, the whole number is converted, which fails when it is too large.
Comparisons are exact whatever the kinds.
-/

namespace Montage

inductive Number where
  | whole (value : Int)
  | real (value : Binary64)
deriving DecidableEq

namespace Number

/-- The nearest binary64 number of a whole one. -/
def wholeToReal (n : Int) : Except Defect Binary64 :=
  let x := Binary64.ofInt n
  if x.isFinite then .ok x else .error .overflow

def toReal : Number → Except Defect Binary64
  | .whole n => wholeToReal n
  | .real x => .ok x

/-- Applies one of two operations: the exact one to whole numbers, the other one after
conversion. -/
def combine (exact : Int → Int → Int) (rounded : Binary64 → Binary64 → Binary64) :
    Number → Number → Except Defect Number
  | .whole m, .whole n => .ok (.whole (exact m n))
  | .whole m, .real y => do return .real (rounded (← wholeToReal m) y)
  | .real x, .whole n => do return .real (rounded x (← wholeToReal n))
  | .real x, .real y => .ok (.real (rounded x y))

def add : Number → Number → Except Defect Number :=
  combine (· + ·) Binary64.add

def sub : Number → Number → Except Defect Number :=
  combine (· - ·) Binary64.sub

def mul : Number → Number → Except Defect Number :=
  combine (· * ·) Binary64.mul

/-- The quotient as a binary64 number. That of two whole numbers is rounded once, however large
they are. -/
def div : Number → Number → Except Defect Binary64
  | .whole m, .whole n =>
    let quotient := Binary64.ofRatio ((m < 0) ^^ (n < 0)) m.natAbs n.natAbs
    if quotient.isFinite then .ok quotient else .error .overflow
  | x, y => do return (← x.toReal).div (← y.toReal)

def abs : Number → Number
  | .whole n => .whole n.natAbs
  | .real x => .real x.abs

/-- The order of two numbers; none when either is not-a-number. -/
def compare? : Number → Number → Option Ordering
  | .whole m, .whole n => some (compare m n)
  | .real x, .whole n => x.compareInt? n
  | .whole m, .real y => (y.compareInt? m).map Ordering.swap
  | .real x, .real y => x.compare? y

def lt (x y : Number) : Bool :=
  x.compare? y == some .lt

def le (x y : Number) : Bool :=
  x.compare? y == some .lt || x.compare? y == some .eq

def isPositive (x : Number) : Bool :=
  Number.lt (.whole 0) x

/-- A number with its fraction dropped. -/
def truncate : Number → Except Defect Int
  | .whole n => .ok n
  | .real .nan => .error .badValue
  | .real (.infinity _) => .error .overflow
  | .real (.finite negative units exact) =>
    .ok (((Binary64.finite negative units exact).truncate?).getD 0)

theorem lt_whole_iff (m n : Int) : lt (.whole m) (.whole n) = true ↔ m < n := by
  by_cases less : m < n
  · simp [lt, compare?, compare, compareOfLessAndEq, less]
  · by_cases same : m = n
    · subst same
      simp [lt, compare?, compare, compareOfLessAndEq]
    · simp [lt, compare?, compare, compareOfLessAndEq, less, same]

theorem le_whole_iff (m n : Int) : le (.whole m) (.whole n) = true ↔ m ≤ n := by
  by_cases less : m < n
  · simp [le, compare?, compare, compareOfLessAndEq, less, Int.le_of_lt less]
  · by_cases same : m = n
    · subst same
      simp [le, compare?, compare, compareOfLessAndEq]
    · simp [le, compare?, compare, compareOfLessAndEq, less, same]
      omega

theorem le_of_compare? {x y : Number} {m n : Int} (compared : x.compare? y = some (compare m n)) :
    x.le y = decide (m ≤ n) := by
  have same : x.le y = (Number.whole m).le (.whole n) := by
    rw [le, compared]
    rfl
  rw [same]
  exact Bool.eq_iff_iff.mpr ((le_whole_iff m n).trans decide_eq_true_iff.symm)

theorem lt_of_compare? {x y : Number} {m n : Int} (compared : x.compare? y = some (compare m n)) :
    x.lt y = decide (m < n) := by
  have same : x.lt y = (Number.whole m).lt (.whole n) := by
    rw [lt, compared]
    rfl
  rw [same]
  exact Bool.eq_iff_iff.mpr ((lt_whole_iff m n).trans decide_eq_true_iff.symm)

theorem lt_real_nan (x : Number) : x.lt (.real .nan) = false := by
  cases x with
  | whole n => simp [lt, compare?, Binary64.compareInt?]
  | real x => cases x <;> simp [lt, compare?, Binary64.compare?]

end Number

end Montage
