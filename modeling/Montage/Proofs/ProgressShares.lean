import Mathlib.Data.List.Chain
import Montage.Proofs.MeasuredProgress
import Montage.Proofs.NearestNumbers

/-!
# Shares of a total

The share of a total that a mark has reached is the number nearest to the quotient, brought between
zero and one. Read exactly, it is nothing up to zero and all from the total on, and does not fall in
between. Rounding keeps the order and adds no mark that has reached all; but of a large total a
small mark has reached no share. Main statements: `shares_of_sized`, and `climbing_of_run` for the
percents that a run tells.
-/

namespace Montage

namespace Timeline

open Binary64

/-! ## Exact shares -/

/-- The share of a total that a mark has reached, in the same steps from the exact quotient. -/
def exactShare (mark total : ℚ) : ℚ :=
  let share := mark / total
  let atLeast := if 0 < share then share else 0
  if atLeast < 1 then atLeast else 1

/-- The value of the least positive number. -/
def leastValue : ℚ := 1 / one

section

variable {mark later total : ℚ}

theorem exactShare_eq (mark total : ℚ) : exactShare mark total = max 0 (min 1 (mark / total)) := by
  unfold exactShare
  dsimp only
  rcases le_or_gt (mark / total) 0 with none | some
  · rw [if_neg none.not_gt, if_pos one_pos, max_eq_left ((min_le_right _ _).trans none)]
  · rw [if_pos some, max_eq_right (le_min zero_le_one some.le)]
    split
    · next below => exact (min_eq_right below.le).symm
    · next reached => exact (min_eq_left (not_lt.mp reached)).symm

theorem exactShare_eq_zero_iff (positive : 0 < total) : exactShare mark total = 0 ↔ mark ≤ 0 := by
  rw [exactShare_eq, max_eq_left_iff, min_le_iff, div_nonpos_iff]
  constructor
  · rintro (absurdity | ⟨_, nonpos⟩ | ⟨least, _⟩)
    all_goals linarith
  · exact fun least => .inr (.inr ⟨least, positive.le⟩)

theorem exactShare_eq_one_iff (positive : 0 < total) :
    exactShare mark total = 1 ↔ total ≤ mark := by
  rw [← one_le_div positive, ← min_eq_left_iff (a := (1 : ℚ)), exactShare_eq]
  constructor
  · intro all
    rcases max_choice 0 (min 1 (mark / total)) with none | some
    · rw [all] at none
      exact absurd none one_ne_zero
    · exact some.symm.trans all
  · intro all
    rw [all]
    exact max_eq_right zero_le_one

theorem exactShare_mono (positive : 0 < total) (le : mark ≤ later) :
    exactShare mark total ≤ exactShare later total := by
  rw [exactShare_eq, exactShare_eq]
  gcongr

end

/-! ## Shares in units -/

/-- The units in the share that a mark has reached of a count of units. -/
def shareUnits (mark : Binary64) (count : Nat) : Nat :=
  match mark with
  | .infinity false => one
  | .finite false units _ => min one (nearestUnits (units * one) count)
  | _ => 0

section

variable {mark later : Binary64} {units count : Nat}

theorem shareUnits_le (mark : Binary64) (count : Nat) : shareUnits mark count ≤ one := by
  unfold shareUnits
  split
  · exact Nat.le_refl _
  · exact Nat.min_le_left _ _
  · exact Nat.zero_le _

/-- What is rounded out of range is brought back to one. -/
theorem clampedUnits_ofUnitRatio (num den : Nat) :
    clampedUnits (ofUnitRatio false num den) = min one (nearestUnits num den) := by
  rw [ofUnitRatio_eq]
  split
  · rfl
  · next outside =>
    have beyond : Nat.pow 2 sizeLimit ≤ nearestUnits num den :=
      Nat.le_of_not_lt fun below => outside ⟨below, nearestUnits_mod num den⟩
    have within : one ≤ Nat.pow 2 sizeLimit := Nat.le_of_lt representable_one.1
    rw [clampedUnits, Nat.min_eq_left (Nat.le_trans within beyond)]

theorem clampedUnits_div (exact : Representable count) (positive : 0 < count) :
    clampedUnits (mark.div (.finite false count exact)) = shareUnits mark count := by
  cases mark with
  | nan => rfl
  | infinity negative => cases negative <;> rfl
  | finite negative units unitsExact =>
    have quotient : (finite negative units unitsExact).div (finite false count exact) =
        ofUnitRatio negative (units * one) count := by
      rw [div, if_neg (Nat.ne_of_gt positive), Bool.xor_false, ofRatio]
    rw [quotient]
    cases negative with
    | false => exact clampedUnits_ofUnitRatio _ _
    | true =>
      rcases ofUnitRatio_cases true (units * one) count with ⟨rounded, same⟩ | same <;>
        rw [same] <;> rfl

/-- Of what is not below another mark no smaller share has been reached. -/
theorem shareUnits_mono (positive : 0 < count)
    (le : (Number.real mark).le (.real later) = true) :
    shareUnits mark count ≤ shareUnits later count := by
  cases mark with
  | nan => cases le
  | infinity negative =>
    cases negative with
    | true => exact Nat.zero_le _
    | false =>
      cases later with
      | nan | finite => cases le
      | infinity negative =>
        cases negative with
        | true => cases le
        | false => exact Nat.le_refl _
  | finite negative units exact =>
    cases negative with
    | true => exact Nat.zero_le _
    | false =>
      cases later with
      | nan => cases le
      | infinity negative =>
        cases negative with
        | true => cases le
        | false => exact Nat.min_le_left _ _
      | finite negative others othersExact =>
        rw [Number.le_of_compare? rfl, if_neg Bool.false_ne_true, decide_eq_true_iff] at le
        cases negative with
        | true =>
          have nothing : units = 0 := by
            rw [if_pos rfl] at le
            omega
          rw [shareUnits, nothing, Nat.zero_mul, nearestUnits_zero_left, Nat.min_zero]
          exact Nat.zero_le _
        | false =>
          rw [if_neg Bool.false_ne_true] at le
          have scaled := Nat.mul_le_mul_right one (Int.ofNat_le.mp le)
          exact min_le_min_left one (nearestUnits_mono_left positive scaled)

end

/-! ## Shares as values -/

section

variable {mark : Binary64} {m : ℚ} {count : Nat}

/-- A mark is at most zero, or has no sign. -/
theorem mark_cases (value : mark.toRat? = some m) :
    (m ≤ 0 ∧ ∀ count, shareUnits mark count = 0) ∨
      ∃ units exact, mark = .finite false units exact ∧ m = units / one := by
  cases mark with
  | nan | infinity => cases value
  | finite negative units exact =>
    cases negative with
    | true =>
      cases value
      have least : (0 : ℚ) ≤ units / one := div_nonneg (Nat.cast_nonneg units) one_pos_rat.le
      exact .inl ⟨neg_nonpos.mpr least, fun _ => rfl⟩
    | false =>
      cases value
      exact .inr ⟨units, exact, rfl, rfl⟩

theorem ratio_of_units (units : Nat) (positive : 0 < count) :
    (units / one : ℚ) / (count / one) = (units * one : Nat) / (count * one) := by
  have unit := one_pos_rat
  have divisor : (0 : ℚ) < count := Nat.cast_pos.mpr positive
  rw [Nat.cast_mul]
  generalize (one : ℚ) = whole at *
  field_simp

theorem ratio_le_half_iff (num : Nat) (positive : 0 < count) :
    (num : ℚ) / (count * one) ≤ leastValue / 2 ↔ 2 * num ≤ count := by
  have unit := one_pos_rat
  have divisor : (0 : ℚ) < count := Nat.cast_pos.mpr positive
  have half : leastValue / 2 * (count * one) = (count : ℚ) / 2 := by
    unfold leastValue
    generalize (one : ℚ) = whole at *
    field_simp
  rw [div_le_iff₀ (mul_pos divisor unit), half, le_div_iff₀ two_pos, mul_comm]
  exact_mod_cast Iff.rfl

theorem count_pos_rat (positive : 0 < count) : (0 : ℚ) < count / one :=
  div_pos (Nat.cast_pos.mpr positive) one_pos_rat

/-- No share is reached up to zero, nor by what is at most half of the least number. -/
theorem shareUnits_eq_zero_iff (positive : 0 < count) (value : mark.toRat? = some m) :
    shareUnits mark count = 0 ↔ m ≤ 0 ∨ m / (count / one) ≤ leastValue / 2 := by
  rcases mark_cases value with ⟨least, none⟩ | ⟨units, exact, rfl, rfl⟩
  · exact iff_of_true (none count) (.inl least)
  have rounded : shareUnits (.finite false units exact) count = 0 ↔
      nearestUnits (units * one) count = 0 := by
    have unit := pos_units_one
    rw [shareUnits]
    omega
  have small : (units / one : ℚ) ≤ 0 →
      (units / one : ℚ) / (count / one) ≤ leastValue / 2 := by
    intro nothing
    have half : 0 ≤ leastValue / 2 := by
      have unit := one_pos_rat
      unfold leastValue
      exact (half_pos (one_div_pos.mpr unit)).le
    exact (div_nonpos_of_nonpos_of_nonneg nothing (count_pos_rat positive).le).trans half
  rw [rounded, nearestUnits_eq_zero_iff positive, or_iff_right_of_imp small,
    ratio_of_units units positive, ratio_le_half_iff _ positive]

/-- All is reached from the total on. -/
theorem shareUnits_eq_one_iff (exact : Representable count) (positive : 0 < count)
    (value : mark.toRat? = some m) : shareUnits mark count = one ↔ count / one ≤ m := by
  rcases mark_cases value with ⟨least, none⟩ | ⟨units, unitsExact, rfl, rfl⟩
  · rw [none]
    exact iff_of_false (Nat.ne_of_lt pos_units_one)
      (not_le.mpr (least.trans_lt (count_pos_rat positive)))
  · rw [div_le_div_iff_of_pos_right one_pos_rat, Nat.cast_le,
      ← one_le_nearestUnits_iff unitsExact.2 exact.2 positive]
    exact min_eq_left_iff

/-- No number is nearer to the exact share than the share that is counted. -/
theorem isNearest_share (exact : Representable count) (positive : 0 < count)
    (value : mark.toRat? = some m) :
    IsNearest (shareUnits mark count / one) (exactShare m (count / one)) := by
  have counted := count_pos_rat positive
  rcases mark_cases value with ⟨least, none⟩ | ⟨units, unitsExact, rfl, rfl⟩
  · rw [none, (exactShare_eq_zero_iff counted).mpr least, Nat.cast_zero, zero_div]
    exact isNearest_self toRat?_zero
  rcases Nat.lt_or_ge units count with below | reached
  · have least : (0 : ℚ) ≤ units / one := div_nonneg (Nat.cast_nonneg units) one_pos_rat.le
    have within : nearestUnits (units * one) count ≤ one := by
      have mono := nearestUnits_mono_left positive (Nat.mul_le_mul_right one below.le)
      rwa [nearestUnits_self positive] at mono
    have inRange : Representable (nearestUnits (units * one) count) :=
      ⟨Nat.lt_of_le_of_lt within representable_one.1, nearestUnits_mod _ _⟩
    have quotient : (units / one : ℚ) / (count / one) ≤ 1 := by
      rw [div_le_one counted, div_le_div_iff_of_pos_right one_pos_rat, Nat.cast_le]
      exact below.le
    rw [exactShare_eq, min_eq_right quotient, max_eq_right (div_nonneg least counted.le),
      ratio_of_units units positive, shareUnits, min_eq_right within]
    exact isNearest_nearestUnits positive inRange
  · have all : (count / one : ℚ) ≤ units / one := by
      rw [div_le_div_iff_of_pos_right one_pos_rat, Nat.cast_le]
      exact reached
    rw [(shareUnits_eq_one_iff exact positive value).mpr all,
      (exactShare_eq_one_iff counted).mpr all, div_self one_pos_rat.ne']
    exact isNearest_self toRat?_one

end

/-! ## Totals of some size -/

/-- The value of the share of a total that a mark has reached; none if there is no such number. -/
def share? (total : Value) (mark : Binary64) : Option ℚ :=
  (progress (.real mark) total).toOption.bind toRat?

/-- A positive total of some size in the range of the real numbers, and the value of the real number
that it is counted as. -/
structure Sized (total : Value) (size counted : ℚ) : Prop where
  positive : 0 < size
  value : total.toRat? = some size
  converted : ∃ number real, total.number = .ok number ∧ number.toReal = .ok real ∧
    real.toRat? = some counted

/-- Whole numbers of at most 53 binary digits are counted as they are. -/
theorem sized_int_of_small {n : Nat} (positive : 0 < n) (small : n ≤ Nat.pow 2 53) :
    Sized (.int n) n n := by
  refine ⟨Nat.cast_pos.mpr positive, rfl, .whole n, _, rfl,
    Number.wholeToReal_of_small (n := n) small, ?_⟩
  rw [decide_eq_false (Int.not_lt.mpr (Int.natCast_nonneg n))]
  exact toRat?_mul_one false n _

section

variable {total : Value} {size counted : ℚ}

/-- A whole number is converted to the nearest value. -/
theorem isNearest_of_wholeToReal {n : Int} {units : Nat} {exact : Representable units}
    (positive : 0 < n) (converted : Number.wholeToReal n = .ok (.finite false units exact)) :
    IsNearest (units / one) n := by
  obtain ⟨rounded, -⟩ := Number.wholeToReal_eq_ok_iff.mp converted
  have split : ofInt n = ofUnitRatio (n < 0) (n.natAbs * one) 1 := rfl
  have size : (n : ℚ) = (n.natAbs * one : Nat) / (((1 : Nat) : ℚ) * one) := by
    have unit := one_pos_rat
    have same : ((n.natAbs : Int) : ℚ) = n := congrArg Int.cast (Int.natAbs_of_nonneg positive.le)
    rw [Nat.cast_one, one_mul, Nat.cast_mul, mul_div_cancel_right₀ _ unit.ne', ← same]
    rfl
  rcases ofUnitRatio_cases (n < 0) (n.natAbs * one) 1 with ⟨nearestExact, finite⟩ | infinite
  · obtain ⟨_, rfl⟩ := Binary64.finite.inj ((rounded.symm.trans split).trans finite)
    rw [size]
    exact isNearest_nearestUnits Nat.one_pos nearestExact
  · cases (rounded.symm.trans split).trans infinite

/-- A total is counted as the number nearest to its size. -/
theorem Sized.isNearest (sized : Sized total size counted) : IsNearest counted size := by
  obtain ⟨positive, sizeIs, number, real, numberIs, realIs, countedIs⟩ := sized
  rw [Value.toRat?, Value.number_eq_ok_iff.mp numberIs] at sizeIs
  cases number with
  | whole n =>
    cases sizeIs
    have above : 0 < n := Int.cast_pos.mp positive
    obtain ⟨units, exact, rfl, -⟩ := Number.wholeToReal_of_pos above realIs
    cases countedIs
    exact isNearest_of_wholeToReal above realIs
  | real x =>
    cases realIs
    obtain rfl := Option.some.inj (sizeIs.symm.trans countedIs)
    exact isNearest_self countedIs

/-- What a quotient by a total of some size is divided by. -/
theorem Sized.exists_real (sized : Sized total size counted) :
    ∃ number units exact, total.number = .ok number ∧ number.isPositive = true ∧
      number.toReal = .ok (.finite false units exact) ∧ 0 < units ∧ counted = units / one := by
  obtain ⟨positive, sizeIs, number, real, numberIs, realIs, countedIs⟩ := sized
  rw [Value.toRat?, Value.number_eq_ok_iff.mp numberIs] at sizeIs
  cases number with
  | whole n =>
    cases sizeIs
    have above : 0 < n := Int.cast_pos.mp positive
    obtain ⟨units, exact, rfl, some_units⟩ := Number.wholeToReal_of_pos above realIs
    cases countedIs
    exact ⟨_, units, exact, numberIs, (Number.lt_whole_iff 0 n).mpr above, realIs, some_units, rfl⟩
  | real x =>
    cases realIs
    obtain rfl := Option.some.inj (sizeIs.symm.trans countedIs)
    rcases mark_cases countedIs with ⟨least, -⟩ | ⟨units, exact, rfl, same⟩
    · exact absurd positive least.not_gt
    · have some_units : 0 < units := by
        rw [same, div_pos_iff_of_pos_right one_pos_rat, Nat.cast_pos] at positive
        exact positive
      have isPositive := Number.isPositive_real_iff.mpr (.inr ⟨units, exact, rfl, some_units⟩)
      exact ⟨_, units, exact, numberIs, isPositive, rfl, some_units, same⟩

theorem Sized.zero_lt (sized : Sized total size counted) : (Value.int 0).lt total = .ok true := by
  obtain ⟨number, -, -, numberIs, positive, -⟩ := sized.exists_real
  rw [Value.lt, numberIs]
  exact congrArg Except.ok positive

/-- The share of a total of some size that a mark has reached is that of a count of units. -/
theorem Sized.exists_units (sized : Sized total size counted) :
    ∃ units, Representable units ∧ 0 < units ∧ counted = units / one ∧
      ∀ mark : Binary64, ∃ exact,
        progress (.real mark) total = .ok (.finite false (shareUnits mark units) exact) := by
  obtain ⟨number, units, exact, numberIs, -, realIs, some_units, countedIs⟩ := sized.exists_real
  refine ⟨units, exact, some_units, countedIs, fun mark => ?_⟩
  have above := Value.le_zero_of_positive sized.zero_lt
  obtain ⟨shareExact, clamped⟩ := clamp_eq_finite (mark.div (.finite false units exact))
  rw [progress_eq above rfl numberIs (Number.real_div_of_toReal realIs), clamped,
    ← clampedUnits_div exact some_units]
  exact ⟨shareExact, rfl⟩

theorem share?_of_progress {mark : Binary64} {units : Nat} {exact : Representable units}
    (reached : progress (.real mark) total = .ok (.finite false units exact)) :
    share? total mark = some (units / one : ℚ) := by
  rw [share?, reached]
  rfl

/-- What holds of the shares of a total of some size. -/
structure Shares (total : Value) (size counted : ℚ) : Prop where
  /-- The total is counted as the number nearest to its size. -/
  converted : IsNearest counted size
  /-- Every mark has a share from zero to one, not-a-number and the infinities too. -/
  bounded : ∀ mark, ∃ p, share? total mark = some p ∧ 0 ≤ p ∧ p ≤ 1
  monotone : ∀ mark later, (Number.real mark).le (.real later) = true →
    ∃ p q, share? total mark = some p ∧ share? total later = some q ∧ p ≤ q
  /-- A mark that is a number has the share nearest to the exact one. -/
  nearest : ∀ mark m, mark.toRat? = some m →
    ∃ p, share? total mark = some p ∧ IsNearest p (exactShare m counted)
  exact_monotone : ∀ m later, m ≤ later → exactShare m size ≤ exactShare later size
  exact_eq_zero_iff : ∀ m, exactShare m size = 0 ↔ m ≤ 0
  exact_eq_one_iff : ∀ m, exactShare m size = 1 ↔ size ≤ m
  /-- No share is reached up to zero, nor where half of the least number is not passed. -/
  eq_zero_iff : ∀ mark m, mark.toRat? = some m →
    (share? total mark = some 0 ↔ m ≤ 0 ∨ m / counted ≤ leastValue / 2)
  eq_one_iff : ∀ mark m, mark.toRat? = some m → (share? total mark = some 1 ↔ counted ≤ m)
  eq_one_of_size_le : ∀ mark m, mark.toRat? = some m → size ≤ m → share? total mark = some 1

theorem shares_of_sized (sized : Sized total size counted) : Shares total size counted := by
  have isNearest := sized.isNearest
  obtain ⟨units, exact, some_units, rfl, reached⟩ := sized.exists_units
  have share : ∀ mark, share? total mark = some (shareUnits mark units / one : ℚ) := fun mark =>
    share?_of_progress (reached mark).choose_spec
  have unit := one_pos_rat
  have all : ∀ mark m, mark.toRat? = some m →
      (share? total mark = some 1 ↔ (units / one : ℚ) ≤ m) := by
    intro mark m value
    rw [share, Option.some.injEq, div_eq_one_iff_eq unit.ne', Nat.cast_inj]
    exact shareUnits_eq_one_iff exact some_units value
  refine ⟨isNearest, ?bounded, ?monotone, ?nearest, fun _ _ => exactShare_mono sized.positive,
    fun _ => exactShare_eq_zero_iff sized.positive, fun _ => exactShare_eq_one_iff sized.positive,
    ?none, all, ?reached⟩
  case bounded =>
    intro mark
    refine ⟨_, share mark, div_nonneg (Nat.cast_nonneg _) unit.le, ?_⟩
    rw [div_le_one unit, Nat.cast_le]
    exact shareUnits_le mark units
  case monotone =>
    intro mark later le
    refine ⟨_, _, share mark, share later, ?_⟩
    rw [div_le_div_iff_of_pos_right unit, Nat.cast_le]
    exact shareUnits_mono some_units le
  case nearest =>
    exact fun mark m value => ⟨_, share mark, isNearest_share exact some_units value⟩
  case none =>
    intro mark m value
    rw [share, Option.some.injEq, div_eq_zero_iff, or_iff_left unit.ne', Nat.cast_eq_zero]
    exact shareUnits_eq_zero_iff some_units value
  case reached =>
    intro mark m value le
    -- Otherwise the mark were nearer to the size than what the total is counted as.
    refine (all mark m value).mpr (le_of_not_gt fun less => ?_)
    have near := isNearest.nearest value
    rw [abs_of_nonpos (by linarith), abs_of_nonpos (by linarith)] at near
    linarith

end

/-! ## Percents of a total -/

section

variable {total : Value} {size counted : ℚ} {mark later x y : Binary64}

/-- A mark that is not below another one is not of fewer hundredths. -/
theorem Sized.percent_le (sized : Sized total size counted)
    (le : (Number.real mark).le (.real later) = true)
    (markIs : percent (.real mark) total = .ok x) (laterIs : percent (.real later) total = .ok y) :
    (Number.real x).le (.real y) = true := by
  obtain ⟨units, -, some_units, -, reached⟩ := sized.exists_units
  have hundredths : ∀ {mark x}, percent (.real mark) total = .ok x →
      ∃ exact, x = .finite false (nearestUnits (100 * shareUnits mark units) 1) exact := by
    intro mark x given
    obtain ⟨share, progressed, product⟩ := except_bind_eq_ok_iff.mp given
    obtain ⟨exact, same⟩ := reached mark
    obtain rfl := Except.ok.inj (same.symm.trans progressed)
    obtain ⟨productExact, rounded, -⟩ :=
      ofInt_mul_of_le (n := 100) (by decide) exact (shareUnits_le mark units)
    exact ⟨productExact, (except_pure_eq_ok_iff.mp product).symm.trans rounded⟩
  obtain ⟨_, rfl⟩ := hundredths markIs
  obtain ⟨_, rfl⟩ := hundredths laterIs
  rw [Number.le_of_compare? rfl, if_neg Bool.false_ne_true, decide_eq_true_iff]
  refine Int.ofNat_le.mpr (nearestUnits_mono_left Nat.one_pos (Nat.mul_le_mul_left 100 ?_))
  exact shareUnits_mono some_units le

end

end Timeline

/-! ## Runs -/

namespace ProgressReport

/-- Whether the time of a report is not before that of another. -/
def TimeLe (news later : ProgressReport) : Prop :=
  (Number.real news.outTime).le (.real later.outTime) = true

/-- Whether the percents of two reports are told, and the first is not above the other. -/
def PercentLe (news later : ProgressReport) : Prop :=
  ∃ x y, news.percent = some x ∧ later.percent = some y ∧ (Number.real x).le (.real y) = true

/-- Reports of which every percent lies between zero and a hundred, and does not fall where the
time does not. -/
structure Climbing (reports : List ProgressReport) : Prop where
  bounded : ∀ news ∈ reports, ∃ x, news.percent = some x ∧ Timeline.IsPercentage x
  ordered : ∀ news ∈ reports, ∀ later ∈ reports, news.TimeLe later → news.PercentLe later
  climbs : reports.IsChain TimeLe → reports.IsChain PercentLe

/-- Reports climb if each tells the percent that its time is of one total. -/
theorem climbing_of_percents {total : Value} {size counted : ℚ} {reports : List ProgressReport}
    (sized : Timeline.Sized total size counted)
    (percents : ∀ news ∈ reports, ∃ x, news.percent = some x ∧
      Timeline.percent (.real news.outTime) total = .ok x) : Climbing reports := by
  have ordered : ∀ news ∈ reports, ∀ later ∈ reports, news.TimeLe later →
      news.PercentLe later := by
    intro news told later toldLater le
    obtain ⟨x, percentIs, xIs⟩ := percents news told
    obtain ⟨y, laterIs, yIs⟩ := percents later toldLater
    exact ⟨x, y, percentIs, laterIs, sized.percent_le le xIs yIs⟩
  refine ⟨?_, ordered, fun times => times.imp_of_mem_imp fun news later told toldLater =>
    ordered news told later toldLater⟩
  intro news told
  obtain ⟨x, percentIs, xIs⟩ := percents news told
  exact ⟨x, percentIs, Timeline.isPercentage_of_percent xIs⟩

end ProgressReport

namespace EncoderRun

open Timeline

variable {total : Value} {size counted : ℚ}

/-- Against a total of some size, what a run tells climbs, whatever the process does and however
the run ends. -/
theorem climbing_of_run (sized : Sized total size counted) :
    Shares total size counted ∧
      ∀ (process : EncoderProcess) (command : List String) (listener : Option ProgressListener)
        (limit : Value), ProgressReport.Climbing
          (traced (run process command listener total limit)).2.reports := by
  refine ⟨shares_of_sized sized, fun process command listener limit => ?_⟩
  have known := Value.isPresent_of_positive sized.zero_lt
  refine ProgressReport.climbing_of_percents sized ?_
  cases spawning : withProgress? command with
  | none =>
    -- Nothing is told of a command that cannot be spawned.
    have silent : (traced (run process command listener total limit)).2.reports = [] := by
      unfold run
      rw [spawning]
      rfl
    rw [silent]
    exact List.forall_mem_nil _
  | some spawned =>
    exact (telling_of_run process listener limit
      (fun _ _ read => (ProgressNews.percent_of_ofBlock known read).2) spawning).proper

/-- Ten seconds are counted as they are, and the two reports of the sample climb to a hundred. -/
theorem climbing_sampleProcess :
    Sized (.int 10) 10 10 ∧ Shares (.int 10) 10 10 ∧
      ProgressReport.Climbing
        (traced (run sampleProcess ["ffmpeg", "out.mp4"] (some fun _ => .ok ()) (.int 10)
          .null)).2.reports := by
  have sized : Sized (.int 10) 10 10 := sized_int_of_small (n := 10) (by decide) (by decide)
  exact ⟨sized, (climbing_of_run sized).1, (climbing_of_run sized).2 _ _ _ _⟩

end EncoderRun

end Montage
