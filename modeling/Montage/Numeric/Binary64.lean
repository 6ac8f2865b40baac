import Montage.Numeric.Rounding

/-!
# Binary floating point numbers

A finite number is a sign and a count of units, one unit being the smallest positive number,
`2 ^ -1074`. In this form sums and comparisons are those of whole numbers, and every operation is
the exact result followed by one rounding. Not-a-number has no sign and no payload.
-/

namespace Montage

/-- Finite numbers have fewer than two to this power of units; that is below `2 ^ 1024`. -/
def sizeLimit : Nat := 2098

/-- One unit is two to minus this power. -/
def unitPlaces : Nat := 1074

/-- A count of units that a finite number can have: at most 53 binary digits before its trailing
zeros, and below the limit. -/
def Representable (units : Nat) : Prop :=
  units < Nat.pow 2 sizeLimit ∧ units % Nat.pow 2 (units.log2 - 52) = 0

instance (units : Nat) : Decidable (Representable units) :=
  inferInstanceAs (Decidable (_ ∧ _))

theorem two_pow_pos (exponent : Nat) : 0 < Nat.pow 2 exponent :=
  Nat.two_pow_pos exponent

theorem representable_zero : Representable 0 :=
  ⟨two_pow_pos sizeLimit, Nat.zero_mod _⟩

/-- A number of the binary64 format. -/
inductive Binary64 where
  | nan
  | infinity (negative : Bool)
  | finite (negative : Bool) (units : Nat) (exact : Representable units)
deriving DecidableEq

namespace Binary64

/-- The units in the number one. -/
def one : Nat := Nat.pow 2 unitPlaces

/-- The number nearest to `num / den` units; infinite when that is out of range. -/
def ofUnitRatio (negative : Bool) (num den : Nat) : Binary64 :=
  let shift := (num / den).log2 - 52
  let units := roundQuotient num (den * Nat.pow 2 shift) * Nat.pow 2 shift
  if exact : Representable units then .finite negative units exact else .infinity negative

/-- The number nearest to `num / den`. -/
def ofRatio (negative : Bool) (num den : Nat) : Binary64 :=
  ofUnitRatio negative (num * one) den

def zero : Binary64 := .finite false 0 representable_zero

/-- The number nearest to a whole number. -/
def ofInt (n : Int) : Binary64 :=
  ofRatio (n < 0) n.natAbs 1

/-- The number nearest to `digits * 10 ^ exponent`. Exponents far outside the range of the type
are answered without computing the power. -/
def ofDecimal (negative : Bool) (digits : Nat) (exponent : Int) : Binary64 :=
  let size : Int := (Nat.log2 digits / 3 : Nat)
  if digits = 0 then ofUnitRatio negative 0 1
  else if 310 < exponent then .infinity negative
  else if size + exponent < -400 then ofUnitRatio negative 0 1
  else ofRatio negative (digits * Nat.pow 10 exponent.toNat)
    (Nat.pow 10 (-exponent).toNat)

def isFinite : Binary64 → Bool
  | .finite .. => true
  | _ => false

/-- A zero has every digit zero, whatever its sign. -/
def isZero : Binary64 → Bool
  | .finite _ units _ => units == 0
  | _ => false

def neg : Binary64 → Binary64
  | .nan => .nan
  | .infinity negative => .infinity !negative
  | .finite negative units exact => .finite (!negative) units exact

def abs : Binary64 → Binary64
  | .nan => .nan
  | .infinity _ => .infinity false
  | .finite _ units exact => .finite false units exact

/-- A sum that is zero is negative only when both terms are. -/
def add : Binary64 → Binary64 → Binary64
  | .nan, _ => .nan
  | _, .nan => .nan
  | .infinity a, .infinity b => if a = b then .infinity a else .nan
  | .infinity a, .finite .. => .infinity a
  | .finite .., .infinity b => .infinity b
  | .finite a m _, .finite b n _ =>
    let sum : Int := (if a then -(m : Int) else m) + (if b then -(n : Int) else n)
    ofUnitRatio (if sum = 0 then a && b else sum < 0) sum.natAbs 1

def sub (x y : Binary64) : Binary64 :=
  x.add y.neg

def mul : Binary64 → Binary64 → Binary64
  | .nan, _ => .nan
  | _, .nan => .nan
  | .infinity a, .infinity b => .infinity (a ^^ b)
  | .infinity a, .finite b n _ => if n = 0 then .nan else .infinity (a ^^ b)
  | .finite a m _, .infinity b => if m = 0 then .nan else .infinity (a ^^ b)
  | .finite a m _, .finite b n _ => ofUnitRatio (a ^^ b) (m * n) one

def div : Binary64 → Binary64 → Binary64
  | .nan, _ => .nan
  | _, .nan => .nan
  | .infinity _, .infinity _ => .nan
  | .infinity a, .finite b _ _ => .infinity (a ^^ b)
  | .finite a _ _, .infinity b => ofUnitRatio (a ^^ b) 0 1
  | .finite a m _, .finite b n _ =>
    if n = 0 then (if m = 0 then .nan else .infinity (a ^^ b)) else ofRatio (a ^^ b) m n

/-- The order of two numbers; none when either is not a number. Both zeros are equal. -/
def compare? : Binary64 → Binary64 → Option Ordering
  | .nan, _ => none
  | _, .nan => none
  | .infinity a, .infinity b => some (compare b a)
  | .infinity a, .finite .. => some (if a then .lt else .gt)
  | .finite .., .infinity b => some (if b then .gt else .lt)
  | .finite a m _, .finite b n _ =>
    some (compare (if a then -(m : Int) else m) (if b then -(n : Int) else n))

/-- The order of a number and a whole number, compared exactly. -/
def compareInt? : Binary64 → Int → Option Ordering
  | .nan, _ => none
  | .infinity a, _ => some (if a then .lt else .gt)
  | .finite a m _, k => some (compare (if a then -(m : Int) else m) (k * one))

/-- Whether a finite number has no fraction. -/
def isWhole : Binary64 → Bool
  | .finite _ units _ => units % one == 0
  | _ => false

/-- A finite number with its fraction dropped. -/
def truncate? : Binary64 → Option Int
  | .finite negative units _ =>
    let whole : Int := (units / one : Nat)
    some (if negative then -whole else whole)
  | _ => none

theorem ofUnitRatio_zero_left (negative : Bool) (den : Nat) :
    ofUnitRatio negative 0 den = .finite negative 0 representable_zero := by
  simp only [ofUnitRatio, roundQuotient_zero_left, Nat.zero_mul]
  exact dif_pos representable_zero

example : (ofRatio false 1 10).add (ofRatio false 2 10) =
    ofRatio false 30000000000000004 (Nat.pow 10 17) := by
  decide +kernel

end Binary64

end Montage
