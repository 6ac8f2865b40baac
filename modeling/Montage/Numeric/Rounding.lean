/-!
# Rounding a quotient

The one rounding rule of the library: to the nearest whole number, a half going to the even
neighbour. Binary floating point, fixed decimal places and shortest decimals are all built on it.
-/

namespace Montage

/-- The whole number nearest to `num / den`; a half goes to the even neighbour. -/
def roundQuotient (num den : Nat) : Nat :=
  let floor := num / den
  let rest := num % den
  if 2 * rest < den then floor
  else if den < 2 * rest then floor + 1
  else if floor % 2 = 0 then floor else floor + 1

theorem roundQuotient_eq_or (num den : Nat) :
    roundQuotient num den = num / den ∨ roundQuotient num den = num / den + 1 := by
  unfold roundQuotient
  grind

/-- The rounded quotient is within half a unit of the exact one. -/
theorem roundQuotient_within_half (num : Nat) {den : Nat} (positive : 0 < den) :
    2 * (roundQuotient num den * den) ≤ 2 * num + den ∧
      2 * num ≤ 2 * (roundQuotient num den * den) + den := by
  have split := Nat.div_add_mod num den
  have small := Nat.mod_lt num positive
  have commute : num / den * den = den * (num / den) := Nat.mul_comm _ _
  have next : (num / den + 1) * den = den * (num / den) + den := by
    rw [Nat.add_mul, Nat.one_mul, commute]
  unfold roundQuotient
  simp only
  split
  · rw [commute]
    omega
  · split
    · rw [next]
      omega
    · split
      · rw [commute]
        omega
      · rw [next]
        omega

@[simp] theorem roundQuotient_zero_left (den : Nat) : roundQuotient 0 den = 0 := by
  simp [roundQuotient]

/-- Rounding does not pass a whole number. -/
theorem roundQuotient_le {num den n : Nat} (positive : 0 < den) (bound : num ≤ n * den) :
    roundQuotient num den ≤ n := by
  obtain ⟨within, _⟩ := roundQuotient_within_half num positive
  have doubled : (2 * roundQuotient num den) * den ≤ (2 * n + 1) * den := by
    rw [Nat.mul_assoc, Nat.add_mul, Nat.mul_assoc, Nat.one_mul]
    omega
  have small := Nat.le_of_mul_le_mul_right doubled positive
  omega

/-- What is no greater than a half is rounded to zero. -/
theorem roundQuotient_eq_zero_iff {num den : Nat} (positive : 0 < den) :
    roundQuotient num den = 0 ↔ 2 * num ≤ den := by
  constructor
  · intro zero
    obtain ⟨_, below⟩ := roundQuotient_within_half num positive
    rwa [zero, Nat.zero_mul, Nat.mul_zero, Nat.zero_add] at below
  · intro small
    have floor : num / den = 0 := Nat.div_eq_of_lt (by omega)
    have rest : num % den = num := Nat.mod_eq_of_lt (by omega)
    rw [roundQuotient, floor, rest]
    split
    · rfl
    · exact if_neg (Nat.not_lt.mpr small)

/-- A greater number is not rounded to a smaller one. -/
theorem roundQuotient_mono {num other : Nat} (den : Nat) (le : num ≤ other) :
    roundQuotient num den ≤ roundQuotient other den := by
  rcases Nat.eq_or_lt_of_le (Nat.div_le_div_right (c := den) le) with same | less
  · have first := Nat.div_add_mod num den
    have second := Nat.div_add_mod other den
    rw [same] at first
    have rest : num % den ≤ other % den := by omega
    unfold roundQuotient
    rw [same]
    grind
  · rcases roundQuotient_eq_or num den with down | up <;>
      rcases roundQuotient_eq_or other den with down' | up' <;> omega

/-- A quotient without rest is kept. -/
theorem roundQuotient_mul_right (n : Nat) {den : Nat} (positive : 0 < den) :
    roundQuotient (n * den) den = n := by
  simp [roundQuotient, Nat.mul_div_cancel n positive, positive]

/-- A common factor has no part in the quotient. -/
theorem roundQuotient_mul_mul_right (num den : Nat) {factor : Nat} (positive : 0 < factor) :
    roundQuotient (num * factor) (den * factor) = roundQuotient num den := by
  have less : ∀ m n : Nat, 2 * (m * factor) < n * factor ↔ 2 * m < n := by
    intro m n
    rw [← Nat.mul_assoc]
    exact Nat.mul_lt_mul_right positive
  have greater : ∀ m n : Nat, n * factor < 2 * (m * factor) ↔ n < 2 * m := by
    intro m n
    rw [← Nat.mul_assoc]
    exact Nat.mul_lt_mul_right positive
  unfold roundQuotient
  simp only [Nat.mul_div_mul_right _ _ positive, Nat.mul_mod_mul_right, less, greater]

example : [roundQuotient 5 10, roundQuotient 15 10, roundQuotient 16 10] = [0, 2, 2] := by decide

end Montage
