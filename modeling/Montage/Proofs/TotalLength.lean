import Montage.Proofs.Assembly
import Montage.Proofs.LengthChecks
import Montage.Proofs.RealBounds

/-!
# The length of the timeline

A total is refused when a comparison says that it is not positive. No comparison says so of
not-a-number, which comes out of a crossfade that is not-a-number itself, and of an infinite one
when there is no join. All other totals that pass are positive numbers that progress can be
measured against. Main statement: `measures_iff_of_run_compile`.
-/

namespace Montage

namespace Value

open Binary64

/-- What is left when a real number is not found to be negative. -/
theorem real_lt_zero_eq_false_iff {x : Binary64} :
    (Value.real x).lt (.int 0) = .ok false ↔ x = .nan ∨ x = .infinity false ∨
      ∃ negative units exact, x = .finite negative units exact ∧ (negative = true → units = 0) := by
  show Except.ok ((Number.real x).lt (.whole 0)) = .ok false ↔ _
  rw [Except.ok.injEq]
  cases x with
  | nan => exact iff_of_true rfl (.inl rfl)
  | infinity negative => cases negative <;> simp [Number.lt, Number.compare?, compareInt?]
  | finite negative units exact =>
    rw [Number.lt_of_compare? rfl, Int.zero_mul, decide_eq_false_iff_not]
    constructor
    · intro least
      refine .inr (.inr ⟨negative, units, exact, rfl, fun isNegative => ?_⟩)
      rw [if_pos isNegative] at least
      omega
    · rintro (same | same | ⟨_, _, _, same, least⟩)
      · cases same
      · cases same
      · cases same
        split
        · next isNegative =>
          rw [least isNegative]
          omega
        · omega

/-- What is left when a real number is not found to be at most zero. -/
theorem real_le_zero_eq_false_iff {x : Binary64} :
    (Value.real x).le (.int 0) = .ok false ↔ x = .nan ∨ x = .infinity false ∨
      ∃ units exact, x = .finite false units exact ∧ 0 < units := by
  show Except.ok ((Number.real x).le (.whole 0)) = .ok false ↔ _
  rw [Except.ok.injEq]
  cases x with
  | nan => exact iff_of_true rfl (.inl rfl)
  | infinity negative => cases negative <;> simp [Number.le, Number.compare?, compareInt?]
  | finite negative units exact =>
    rw [Number.le_of_compare? rfl, Int.zero_mul, decide_eq_false_iff_not]
    constructor
    · intro above
      cases negative with
      | true =>
        rw [if_pos rfl] at above
        omega
      | false =>
        rw [if_neg Bool.false_ne_true] at above
        exact .inr (.inr ⟨units, exact, rfl, by omega⟩)
    · rintro (same | same | ⟨_, _, same, positive⟩)
      · cases same
      · cases same
      · cases same
        rw [if_neg Bool.false_ne_true]
        omega

/-- What is greater than zero does not count as nothing. -/
theorem le_zero_of_positive {value : Value} (positive : (Value.int 0).lt value = .ok true) :
    value.le (.int 0) = .ok false := by
  obtain ⟨x, counted, less⟩ := except_bind_eq_ok_iff.mp positive
  cases Except.ok.inj counted
  obtain ⟨y, counted, less⟩ := except_bind_eq_ok_iff.mp less
  have greater : (Number.whole 0).lt y = true := except_pure_eq_ok_iff.mp less
  have above : y.le (.whole 0) = false := by
    cases y with
    | whole n => simpa [← Bool.not_eq_true, Number.le_whole_iff, Number.lt_whole_iff] using greater
    | real x =>
      simp only [Number.lt, Number.le, Number.compare?, beq_iff_eq] at greater ⊢
      obtain ⟨order, compared, swapped⟩ := Option.map_eq_some_iff.mp greater
      cases order <;> simp_all
  rw [Value.le, counted]
  exact congrArg Except.ok above

/-- What is greater than zero is present. -/
theorem isPresent_of_positive {value : Value} (positive : (Value.int 0).lt value = .ok true) :
    value.isPresent = true := by
  cases value with
  | bool b =>
    cases b with
    | true => rfl
    | false => cases positive
  | int n =>
    rw [lt_int, Except.ok.injEq, decide_eq_true_iff] at positive
    exact bne_iff_ne.mpr (Int.ne_of_gt positive)
  | real x =>
    rcases real_le_zero_eq_false_iff.mp (le_zero_of_positive positive) with
      rfl | rfl | ⟨units, exact, rfl, some_units⟩
    · rfl
    · rfl
    · have present : (units == 0) = false := beq_eq_false_iff_ne.mpr (Nat.ne_of_gt some_units)
      rw [isPresent, Binary64.isZero, present]
      rfl
  | null | text _ | list _ | object _ => cases positive

end Value

namespace Binary64

variable {start units count : Nat} {negative : Bool}

/-- A sum that is no greater than its first term is positive and finite where it is not found to
be at most zero. -/
theorem add_of_finite (exact : Representable start) (unitsExact : Representable units)
    (shrinks : negative = false → units = 0)
    (above : (Value.real ((finite false start exact).add (finite negative units unitsExact))).le
      (.int 0) = .ok false) :
    ∃ left leftExact, (finite false start exact).add (finite negative units unitsExact) =
      finite false left leftExact ∧ 0 < left := by
  have small : (if negative then -(units : Int) else units) ≤ 0 := by
    cases negative with
    | true => exact Int.neg_nonpos_of_nonneg (Int.natCast_nonneg units)
    | false => simp [shrinks rfl]
  generalize moved : (if negative then -(units : Int) else units) = change at small
  have rounded : (finite false start exact).add (finite negative units unitsExact) =
      ofUnitRatio
        (if (start : Int) + change = 0 then false else decide ((start : Int) + change < 0))
        ((start : Int) + change).natAbs 1 := by
    rw [← moved]
    simp [add]
  rw [rounded] at above ⊢
  -- Rounding keeps the sign, and the start is a number that the sum does not pass.
  rcases Int.lt_trichotomy ((start : Int) + change) 0 with below | zero | positive
  · rw [if_neg (Int.ne_of_lt below), decide_eq_true below] at above
    rcases ofUnitRatio_cases true ((start : Int) + change).natAbs 1 with ⟨_, same⟩ | same <;>
      rw [same] at above <;> simp [Value.real_le_zero_eq_false_iff] at above
  · rw [if_pos zero, zero, Int.natAbs_zero, ofUnitRatio_zero_left] at above
    simp [Value.real_le_zero_eq_false_iff] at above
  · rw [if_neg (Int.ne_of_gt positive), decide_eq_false (Int.lt_asymm positive),
      ofUnitRatio_of_le false exact (by omega)]
    exact ⟨_, _, rfl, nearestUnits_pos (by omega)⟩

/-- A start less a product, neither of which is negative, is positive and finite where it is not
found to be at most zero. -/
theorem sub_mul_of_finite (exact : Representable start) (unitsExact : Representable units)
    (countExact : Representable count) (nonneg : negative = true → units = 0)
    (above : (Value.real ((finite false start exact).sub
      ((finite negative units unitsExact).mul (finite false count countExact)))).le (.int 0) =
        .ok false) :
    ∃ left leftExact, (finite false start exact).sub
      ((finite negative units unitsExact).mul (finite false count countExact)) =
        finite false left leftExact ∧ 0 < left := by
  have product : (finite negative units unitsExact).mul (finite false count countExact) =
      ofUnitRatio negative (units * count) one := by simp [mul]
  rw [product] at above ⊢
  rcases ofUnitRatio_cases negative (units * count) one with ⟨productExact, same⟩ | same
  · rw [same] at above ⊢
    refine add_of_finite exact productExact (fun isNegative => ?_) above
    rw [nonneg (by simpa using isNegative), Nat.zero_mul, nearestUnits_zero_left]
  · -- A product that leaves the range takes everything away.
    cases negative with
    | true =>
      rw [nonneg rfl, Nat.zero_mul, ofUnitRatio_zero_left] at same
      cases same
    | false =>
      rw [same] at above
      simp [sub, neg, add, Value.real_le_zero_eq_false_iff] at above

end Binary64

/-! ## Progress -/

namespace Timeline

open Binary64

/-- A total that progress can be measured against: a positive number, of which nothing is done at
the start and everything at the end. -/
structure Measures (total : Value) : Prop where
  number : Compilation.isLength total
  positive : (Value.int 0).lt total = .ok true
  start : percent (.int 0) total = .ok zero
  finish : percent total total = .ok (ofInt 100)

/-- A share that is brought between zero and one. -/
def clamp (share : Binary64) : Binary64 :=
  let atLeast := if (Number.real share).isPositive then share else zero
  if atLeast.compare? (ofInt 1) == some .lt then atLeast else ofInt 1

theorem progress_eq {mark total : Value} {x y : Number} {share : Binary64}
    (above : total.le (.int 0) = .ok false) (markIs : mark.number = .ok x)
    (totalIs : total.number = .ok y) (shareIs : x.div y = .ok share) :
    progress mark total = .ok (clamp share) := by
  refine except_bind_eq_ok_iff.mpr ⟨false, liftM_defect_eq_ok_iff.mpr above, ?_⟩
  refine except_bind_eq_ok_iff.mpr ⟨x, liftM_defect_eq_ok_iff.mpr markIs, ?_⟩
  refine except_bind_eq_ok_iff.mpr ⟨y, liftM_defect_eq_ok_iff.mpr totalIs, ?_⟩
  exact except_bind_eq_ok_iff.mpr ⟨share, liftM_defect_eq_ok_iff.mpr shareIs, rfl⟩

theorem percent_eq {mark total : Value} {x y : Number} {share : Binary64}
    (above : total.le (.int 0) = .ok false) (markIs : mark.number = .ok x)
    (totalIs : total.number = .ok y) (shareIs : x.div y = .ok share) :
    percent mark total = .ok ((ofInt 100).mul (clamp share)) :=
  except_bind_eq_ok_iff.mpr ⟨clamp share, progress_eq above markIs totalIs shareIs, rfl⟩

theorem percent_of_none : (ofInt 100).mul (clamp zero) = zero := by
  decide +kernel

theorem percent_of_all : (ofInt 100).mul (clamp (ofInt 1)) = ofInt 100 := by
  decide +kernel

/-- A positive total can be measured against if nothing is no share of it and it is a whole share
of itself. -/
theorem measures_of_shares {total : Value} {y : Number} (number : Compilation.isLength total)
    (positive : (Value.int 0).lt total = .ok true) (above : total.le (.int 0) = .ok false)
    (totalIs : total.number = .ok y) (none : (Number.whole 0).div y = .ok zero)
    (all : y.div y = .ok (ofInt 1)) : Measures total := by
  refine ⟨number, positive, ?_, ?_⟩
  · rw [percent_eq above rfl totalIs none, percent_of_none]
  · rw [percent_eq above totalIs totalIs all, percent_of_all]

/-- Every positive whole number can be measured against. -/
theorem measures_int {total : Int} (positive : 0 < total) : Measures (.int total) := by
  have above : (Value.int total).le (.int 0) = .ok false := by
    rw [Value.le_int, decide_eq_false (Int.not_le.mpr positive)]
  have sign : decide (total < 0) = false := decide_eq_false (Int.lt_asymm positive)
  have none : (Number.whole 0).div (.whole total) = .ok zero := by
    refine Number.div_whole ?_ rfl
    rw [sign]
    exact ofRatio_zero_left _ _
  have all : (Number.whole total).div (.whole total) = .ok (ofInt 1) := by
    refine Number.div_whole ?_ (by rw [ofInt_one]; rfl)
    rw [sign, ofInt_one]
    exact ofRatio_self (by omega)
  refine measures_of_shares rfl ?_ above rfl none all
  rw [Value.lt_int, decide_eq_true positive]

/-- Every positive finite number can be measured against. -/
theorem measures_real {units : Nat} (exact : Representable units) (positive : 0 < units) :
    Measures (.real (.finite false units exact)) := by
  have above := Value.real_le_zero_eq_false_iff.mpr (.inr (.inr ⟨units, exact, rfl, positive⟩))
  have present : units ≠ 0 := Nat.pos_iff_ne_zero.mp positive
  have none : (Number.whole 0).div (.real (.finite false units exact)) = .ok zero := by
    refine except_bind_eq_ok_iff.mpr ⟨zero, Number.wholeToReal_zero, ?_⟩
    show Except.ok (if units = 0 then _ else ofRatio false 0 units) = _
    rw [if_neg present, ofRatio_zero_left]
    rfl
  have all : (Number.real (.finite false units exact)).div (.real (.finite false units exact)) =
      .ok (ofInt 1) := by
    show Except.ok (if units = 0 then _ else ofRatio false units units) = _
    rw [if_neg present, ofRatio_self positive, ofInt_one]
  have order : (Number.whole 0).compare? (.real (.finite false units exact)) =
      some (compare (0 * (one : Int)) units) := congrArg some (Int.compare_swap _ _)
  refine measures_of_shares rfl ?_ above rfl none all
  show Except.ok ((Number.whole 0).lt (.real (.finite false units exact))) = _
  rw [Number.lt_of_compare? order, decide_eq_true (by omega)]

/-- Crossfades that count as numbers, and not as negative ones, but take the length away from a
timeline of so many cuts: not-a-number, and an infinite one where there is nothing to join. -/
def Degenerate (crossfade : Value) (cuts : Nat) : Prop :=
  crossfade = .real .nan ∨ crossfade = .real (.infinity false) ∧ cuts = 1

theorem not_measures_nan : ¬ Measures (.real .nan) := by
  intro measures
  cases measures.positive

theorem real_of_lessMultiple {sum count : Int} {x : Binary64} {total : Value}
    (given : (Value.int sum).lessMultiple (.real x) count = .ok total) :
    ∃ factor start, Number.wholeToReal count = .ok factor ∧ Number.wholeToReal sum = .ok start ∧
      total = .real (start.sub (x.mul factor)) := by
  obtain ⟨steps, stepsGiven, given⟩ := except_bind_eq_ok_iff.mp given
  obtain ⟨_, isReal, stepsGiven⟩ := except_bind_eq_ok_iff.mp stepsGiven
  cases isReal
  obtain ⟨factor, factorGiven, stepsGiven⟩ := except_bind_eq_ok_iff.mp stepsGiven
  obtain rfl := except_pure_eq_ok_iff.mp stepsGiven
  obtain ⟨_, isWhole, given⟩ := except_bind_eq_ok_iff.mp given
  cases isWhole
  obtain ⟨_, difference, given⟩ := except_bind_eq_ok_iff.mp given
  obtain ⟨start, startGiven, difference⟩ := except_bind_eq_ok_iff.mp difference
  obtain rfl := except_pure_eq_ok_iff.mp difference
  exact ⟨factor, start, factorGiven, startGiven, (except_pure_eq_ok_iff.mp given).symm⟩

/-- What comes of a crossfade that is a real number: a total that can be measured against, or
not-a-number if it is degenerate. -/
theorem total_of_real {sum : Int} {joins : Nat} {x : Binary64} {total : Value} (positive : 0 < sum)
    (passed : (Value.real x).lt (.int 0) = .ok false)
    (given : (Value.int sum).lessMultiple (.real x) joins = .ok total)
    (above : total.le (.int 0) = .ok false) :
    (Degenerate (.real x) (joins + 1) → total = .real .nan) ∧
      (¬ Degenerate (.real x) (joins + 1) → Measures total) := by
  obtain ⟨factor, start, factorGiven, startGiven, rfl⟩ := real_of_lessMultiple given
  obtain ⟨units, exact, rfl, unitsPositive⟩ := Number.wholeToReal_of_pos positive startGiven
  rcases Value.real_lt_zero_eq_false_iff.mp passed with rfl | rfl |
    ⟨negative, fade, fadeExact, rfl, nonneg⟩
  · exact ⟨fun _ => rfl, fun proper => absurd (.inl rfl) proper⟩
  · cases joins with
    | zero =>
      obtain rfl := Except.ok.inj (Number.wholeToReal_zero.symm.trans factorGiven)
      exact ⟨fun _ => rfl, fun proper => absurd (.inr ⟨rfl, rfl⟩) proper⟩
    | succ joins =>
      -- An infinite crossfade at a join leaves less than nothing, which is found out.
      obtain ⟨count, countExact, rfl, countPositive⟩ :=
        Number.wholeToReal_of_pos (by omega) factorGiven
      have product : (infinity false).mul (finite false count countExact) = infinity false := by
        simp [mul, Nat.pos_iff_ne_zero.mp countPositive]
      rw [product] at above
      simp [sub, neg, add, Value.real_le_zero_eq_false_iff] at above
  · obtain ⟨count, countExact, rfl⟩ := Number.wholeToReal_of_nonneg factorGiven
    obtain ⟨left, leftExact, same, leftPositive⟩ :=
      sub_mul_of_finite exact fadeExact countExact nonneg above
    rw [same]
    exact ⟨fun degenerate => by simp [Degenerate] at degenerate,
      fun _ => measures_real leftExact leftPositive⟩

end Timeline

namespace Compilation

open Timeline

/-- Lengths that are all positive add up to a positive length. -/
theorem foldl_add_pos {length : Int} {others : List Int} (first : 0 < length)
    (positive : ∀ other ∈ others, 0 < other) : 0 < others.foldl (· + ·) length := by
  induction others generalizing length with
  | nil => exact first
  | cons other others ih =>
    obtain ⟨here, later⟩ := List.forall_mem_cons.mp positive
    exact ih (Int.add_pos first here) later

/-- A total that passes can be measured against, except with a degenerate crossfade, where it is
not-a-number. -/
theorem measures_of_checkTotal {lengths : List Int} {crossfade total : Value}
    (present : lengths ≠ []) (positive : ∀ length ∈ lengths, 0 < length)
    (passed : checkLength .crossfade crossfade = .ok ())
    (given : checkTotal (lengths.map Value.int) crossfade = .ok total) :
    (Degenerate crossfade lengths.length → total = .real .nan) ∧
      (¬ Degenerate crossfade lengths.length → Measures total) := by
  obtain ⟨isLength, passed⟩ := checkLength_eq_ok_iff.mp passed
  obtain ⟨given, above⟩ := checkTotal_eq_ok_iff.mp given
  obtain ⟨length, others, rfl⟩ := List.exists_cons_of_ne_nil present
  rw [totalOf, if_neg (by simp)] at given
  obtain ⟨sum, sumGiven, given⟩ := except_bind_eq_ok_iff.mp given
  rw [Value.sum_int, List.foldl_cons, Int.zero_add] at sumGiven
  cases sumGiven
  have joins : ((((length :: others).map Value.int).length : Int) - 1) = (others.length : Nat) := by
    simp
  rw [joins] at given
  have sumPositive : 0 < others.foldl (· + ·) length :=
    foldl_add_pos (positive length List.mem_cons_self) fun other otherIn =>
      positive other (List.mem_cons_of_mem length otherIn)
  cases crossfade with
  | int fade =>
    rw [Value.lessMultiple_int] at given
    cases given
    rw [Value.le_int] at above
    refine ⟨fun degenerate => by simp [Degenerate] at degenerate, fun _ => measures_int ?_⟩
    exact Int.not_le.mp (of_decide_eq_false (Except.ok.inj above))
  | real fade => exact total_of_real sumPositive passed given above
  | null | bool | text | list | object => cases isLength

variable {existence : ExistenceCheck} {transition : Transition} {project : Project}
  {transform : Option ProjectTransform} {draft after : Draft} {graph : Graph}

/-- The total of a compiled graph is a positive number, against which progress can be measured,
exactly when its crossfade is not degenerate; otherwise it is not-a-number. -/
theorem measures_iff_of_run_compile
    (compiled : (compile existence transition transform project).run draft = .ok graph after) :
    (Measures graph.total ↔ ¬ Degenerate graph.crossfade graph.durations.length) ∧
      (Degenerate graph.crossfade graph.durations.length → graph.total = .real .nan) := by
  obtain ⟨_, assembly, built⟩ := built_of_compile compiled
  obtain ⟨first, rest, split, _⟩ := Composite.steps_of_run_compose built.joins
  obtain ⟨lengths, durations, positive⟩ := built.resolved.durations_eq
  obtain ⟨_, _, passed⟩ := checkFade_eq_ok_iff.mp built.fade
  have total := built.total
  rw [durations] at total
  have present : lengths ≠ [] := by
    rintro rfl
    have none : assembly.cuts = [] := List.map_eq_nil_iff.mp durations
    have count := built.segments_length
    rw [split, none] at count
    cases count
  rw [built.durations_eq, durations, List.length_map, built.crossfade_eq]
  obtain ⟨lost, kept⟩ := measures_of_checkTotal present positive passed total
  refine ⟨⟨fun measures degenerate => ?_, kept⟩, lost⟩
  rw [lost degenerate] at measures
  exact not_measures_nan measures

theorem measures_sampleProject : ∃ graph after,
    (compile (fun _ _ => .ok true) .plain none sampleProject).run {} = .ok graph after ∧
      Measures graph.total := by
  have succeeds : Drafting.succeeds (compile (fun _ _ => .ok true) .plain none sampleProject) {}
      (fun graph => graph.crossfade = .int 1) = true := by decide +kernel
  obtain ⟨graph, after, compiled, crossfade⟩ := Drafting.exists_of_succeeds succeeds
  refine ⟨graph, after, compiled, (measures_iff_of_run_compile compiled).1.mpr ?_⟩
  rw [of_decide_eq_true crossfade]
  simp [Degenerate]

/-- With a crossfade that is not-a-number, the same cuts compile to a graph without a length. -/
theorem not_measures_sampleProject : ∃ graph after,
    (compile (fun _ _ => .ok true) .plain none
      { sampleProject with fade := ⟨.int 0, .int 0, .real .nan⟩ }).run {} = .ok graph after ∧
      graph.total = .real .nan ∧ ¬ Measures graph.total := by
  have succeeds : Drafting.succeeds (compile (fun _ _ => .ok true) .plain none
      { sampleProject with fade := ⟨.int 0, .int 0, .real .nan⟩ }) {}
      (fun graph => graph.total = .real .nan) = true := by decide +kernel
  obtain ⟨graph, after, compiled, total⟩ := Drafting.exists_of_succeeds succeeds
  have isNan := of_decide_eq_true total
  exact ⟨graph, after, compiled, isNan, by rw [isNan]; exact not_measures_nan⟩

end Compilation

end Montage
