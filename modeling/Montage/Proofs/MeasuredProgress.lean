import Montage.Proofs.Reporting

/-!
# Progress that is measured

Against a known total a run tells how much of it has been reached as a percentage. The share is
brought between zero and one before it is counted in hundredths, and rounding does not lead out of
these bounds, whatever mark and total the share comes from. Main statements:
`isPercentage_of_percent`, and `telling_of_run`, that a run spawns its command with the progress
options before the last part and tells nothing but reports of the blocks it read.
-/

namespace Montage

/-! ## Shares -/

namespace Number

open Binary64

theorem isPositive_real_iff {x : Binary64} : (Number.real x).isPositive = true ↔
    x = .infinity false ∨ ∃ units exact, x = .finite false units exact ∧ 0 < units := by
  cases x with
  | nan => exact iff_of_false (by simp [isPositive, lt_real_nan]) (by simp)
  | infinity negative =>
    cases negative with
    | false => exact iff_of_true rfl (.inl rfl)
    | true => exact iff_of_false (by simp [isPositive, lt, compare?, compareInt?]) (by simp)
  | finite negative units exact =>
    have order : (Number.whole 0).compare? (.real (.finite negative units exact)) =
        some (compare (0 * (one : Int)) (if negative then -(units : Int) else units)) :=
      congrArg some (Int.compare_swap _ _)
    rw [isPositive, lt_of_compare? order, decide_eq_true_iff, Int.zero_mul]
    cases negative with
    | false => simp [exact]
    | true =>
      refine iff_of_false ?_ (by simp)
      rw [if_pos rfl]
      omega

end Number

namespace Timeline

open Binary64

/-- The units in a share that was brought between zero and one, even if it was no number. -/
def clampedUnits : Binary64 → Nat
  | .infinity false => one
  | .finite false units _ => min one units
  | _ => 0

theorem clampedUnits_le (share : Binary64) : clampedUnits share ≤ one := by
  unfold clampedUnits
  split
  · exact Nat.le_refl _
  · exact Nat.min_le_left _ _
  · exact Nat.zero_le _

theorem clamp_of_isPositive_eq_false {share : Binary64}
    (nothing : (Number.real share).isPositive = false) : clamp share = zero := by
  have below : (zero.compare? (ofInt 1) == some .lt) = true := by decide +kernel
  rw [clamp, nothing]
  exact if_pos below

theorem clamp_infinity : clamp (.infinity false) = ofInt 1 := by
  have beyond : ((infinity false).compare? (ofInt 1) == some .lt) = false := by
    rw [ofInt_one]
    rfl
  have positive : (Number.real (.infinity false)).isPositive = true := rfl
  unfold clamp
  rw [if_pos positive]
  dsimp only
  rw [beyond]
  exact if_neg Bool.false_ne_true

theorem clamp_finite {units : Nat} (exact : Representable units) (positive : 0 < units) :
    ∃ least, clamp (.finite false units exact) = .finite false (min one units) least := by
  have isPositive : (Number.real (.finite false units exact)).isPositive = true :=
    Number.isPositive_real_iff.mpr (.inr ⟨units, exact, rfl, positive⟩)
  have order : (Number.real (.finite false units exact)).lt
      (.real (.finite false one representable_one)) = decide ((units : Int) < one) :=
    Number.lt_of_compare? rfl
  unfold clamp
  rw [if_pos isPositive, ofInt_one]
  dsimp only
  rcases Nat.lt_or_ge units one with below | reached
  · rw [decide_eq_true (Int.ofNat_lt.mpr below)] at order
    simp only [Nat.min_eq_right (Nat.le_of_lt below)]
    exact ⟨exact, if_pos order⟩
  · rw [decide_eq_false (by omega)] at order
    simp only [Nat.min_eq_left reached]
    exact ⟨representable_one, if_neg (Bool.not_eq_true _ ▸ order)⟩

theorem clampedUnits_of_isPositive_eq_false {share : Binary64}
    (nothing : (Number.real share).isPositive = false) : clampedUnits share = 0 := by
  have none := mt Number.isPositive_real_iff.mpr (Bool.eq_false_iff.mp nothing)
  unfold clampedUnits
  split
  · exact absurd (.inl rfl) none
  · next units exact =>
    have empty : units = 0 := by
      by_contra some_units
      exact none (.inr ⟨units, exact, rfl, Nat.pos_of_ne_zero some_units⟩)
    rw [empty, Nat.min_zero]
  · rfl

/-- A share that was brought between zero and one is a number, even if it was none. -/
theorem clamp_eq_finite (share : Binary64) :
    ∃ exact, clamp share = .finite false (clampedUnits share) exact := by
  cases positive : (Number.real share).isPositive with
  | true =>
    rcases Number.isPositive_real_iff.mp positive with rfl | ⟨units, exact, rfl, some_units⟩
    · rw [clamp_infinity, ofInt_one, clampedUnits]
      exact ⟨representable_one, rfl⟩
    · exact clamp_finite exact some_units
  | false =>
    rw [clamp_of_isPositive_eq_false positive, clampedUnits_of_isPositive_eq_false positive]
    exact ⟨representable_zero, rfl⟩

/-- Rounding does not lead a share of a small whole number beyond that number. -/
theorem ofInt_mul_of_le {n units : Nat} (small : n ≤ Nat.pow 2 53) (exact : Representable units)
    (le : units ≤ one) :
    ∃ product, (ofInt n).mul (.finite false units exact) =
        .finite false (nearestUnits (n * units) 1) product ∧
      nearestUnits (n * units) 1 ≤ n * one := by
  have most := representable_mul_one small
  have within : n * units ≤ n * one := Nat.mul_le_mul_left n le
  have rounded : (ofInt n).mul (.finite false units exact) =
      ofUnitRatio false (n * units * one) one := by
    rw [ofInt_natCast_of_small small, Nat.mul_right_comm]
    rfl
  have product := representable_nearestUnits most within
  refine ⟨product, ?_, nearestUnits_le most within⟩
  rw [rounded, ofUnitRatio_eq]
  simp only [nearestUnits_mul_right _ pos_units_one, dif_pos product]

/-- Whether a number is a percentage: neither below zero nor above a hundred. -/
def IsPercentage (x : Binary64) : Prop :=
  (Value.int 0).le (.real x) = .ok true ∧ (Value.real x).le (.int 100) = .ok true

theorem isPercentage_mul_clamp (share : Binary64) :
    IsPercentage ((ofInt 100).mul (clamp share)) := by
  obtain ⟨partExact, clamped⟩ := clamp_eq_finite share
  obtain ⟨exact, rounded, le⟩ :=
    ofInt_mul_of_le (n := 100) (by decide) partExact (clampedUnits_le share)
  generalize nearestUnits (100 * clampedUnits share) 1 = units at exact rounded le
  have product : (ofInt 100).mul (clamp share) = .finite false units exact := by
    rw [clamped]
    exact rounded
  have above : (Number.whole 0).compare? (.real (.finite false units exact)) =
      some (compare (0 * (one : Int)) units) := congrArg some (Int.compare_swap _ _)
  rw [product]
  constructor
  · show Except.ok ((Number.whole 0).le _) = _
    rw [Number.le_of_compare? above, decide_eq_true (by omega)]
  · show Except.ok (Number.le _ (.whole 100)) = _
    rw [Number.le_of_compare? rfl, if_neg Bool.false_ne_true, decide_eq_true (by omega)]

/-- Where progress can be measured at all, it is a percentage. -/
theorem isPercentage_of_percent {mark total : Value} {x : Binary64}
    (measured : percent mark total = .ok x) : IsPercentage x := by
  obtain ⟨reached, measured, same⟩ := except_bind_eq_ok_iff.mp measured
  obtain ⟨beyond, _, measured⟩ := except_bind_eq_ok_iff.mp measured
  obtain rfl := except_pure_eq_ok_iff.mp same
  cases beyond with
  | true => cases measured
  | false =>
    obtain ⟨_, _, measured⟩ := except_bind_eq_ok_iff.mp measured
    obtain ⟨_, _, measured⟩ := except_bind_eq_ok_iff.mp measured
    obtain ⟨share, _, measured⟩ := except_bind_eq_ok_iff.mp measured
    obtain rfl := except_pure_eq_ok_iff.mp measured
    exact isPercentage_mul_clamp share

end Timeline

/-! ## Reports -/

/-- A report that tells the total, and how much of it has been reached as a percentage. -/
structure ProgressReport.Measured (total : Value) (news : ProgressReport) : Prop where
  total : news.total = total
  percent : ∃ x, news.percent = some x ∧ Timeline.IsPercentage x

namespace ProgressNews

variable {block : ProgressBlock} {total : Value} {news : ProgressReport}

/-- Against a known total a report tells the percent that its time is of it. -/
theorem percent_of_reportAt {outTime : Binary64} (known : total.isPresent = true)
    (reported : reportAt block outTime total = .ok news) :
    news.total = total ∧ ∃ x, news.percent = some x ∧
      Timeline.percent (.real news.outTime) total = .ok x := by
  obtain ⟨share, measured, same⟩ := except_bind_eq_ok_iff.mp reported
  obtain rfl := except_pure_eq_ok_iff.mp same
  rw [percentOf, if_pos known] at measured
  cases counted : Timeline.percent (.real outTime) total with
  | error failure =>
    rw [counted] at measured
    cases measured
  | ok x =>
    rw [counted] at measured
    cases measured
    exact ⟨rfl, x, rfl, rfl⟩

theorem percent_of_ofBlock (known : total.isPresent = true)
    (read : ofBlock block total = .ok (.report news)) :
    news.total = total ∧ ∃ x, news.percent = some x ∧
      Timeline.percent (.real news.outTime) total = .ok x := by
  unfold ofBlock at read
  split at read
  · cases read
  · split at read
    · cases read
    · split at read
      · cases read
      · cases read
      · next outTime _ =>
        cases reported : reportAt block outTime total with
        | error failure =>
          rw [reported] at read
          cases read
        | ok told =>
          rw [reported] at read
          cases read
          exact percent_of_reportAt known reported

theorem measured_of_ofBlock (known : total.isPresent = true)
    (read : ofBlock block total = .ok (.report news)) : news.Measured total := by
  obtain ⟨same, x, told, counted⟩ := percent_of_ofBlock known read
  exact ⟨same, x, told, Timeline.isPercentage_of_percent counted⟩

end ProgressNews

/-! ## Runs -/

/-- A trace of a run that has spawned a command, and of which every report has a property. -/
structure EncoderTrace.Telling (spawned : List String) (proper : ProgressReport → Prop)
    (trace : EncoderTrace) : Prop where
  spawned : trace.spawned = some spawned
  proper : ∀ news ∈ trace.reports, proper news

namespace EncoderRun

open Encoding EncoderTrace

variable {process : EncoderProcess} {listener : Option ProgressListener} {command : List String}
  {spawned : List String} {proper : ProgressReport → Prop} {total start limit : Value}

/-- What changes neither the spawned command nor the reports. -/
theorem keeps_telling_modify {change : EncoderTrace → EncoderTrace}
    (spawns : ∀ trace, (change trace).spawned = trace.spawned)
    (reports : ∀ trace, (change trace).reports = trace.reports) :
    Keeps (Telling spawned proper) (modify change : Encoding PUnit) :=
  keeps_modify fun trace telling =>
    ⟨(spawns trace).trans telling.spawned, (reports trace).symm ▸ telling.proper⟩

theorem keeps_telling_report (level : LogLevel) (text : String) :
    Keeps (Telling spawned proper) (report level text) :=
  keeps_telling_modify (fun _ => rfl) fun _ => rfl

theorem keeps_telling_request (asked : ProcessRequest) :
    Keeps (Telling spawned proper) (request asked) :=
  keeps_telling_modify (fun _ => rfl) fun _ => rfl

theorem keeps_telling_terminate (process : EncoderProcess) :
    Keeps (Telling spawned proper) (terminate process) := by
  have forced : Keeps (Telling spawned proper) (do
      report .error "Processo não terminou graciosamente, forçando..."
      request .kill
      request .wait) :=
    (keeps_telling_report _ _).bind fun _ =>
      (keeps_telling_request _).bind fun _ => keeps_telling_request _
  unfold terminate
  exact (keeps_telling_report _ _).bind fun _ => (keeps_telling_request _).bind fun _ =>
    (keeps_telling_request _).bind fun _ => keeps_ite forced (keeps_pure _)

theorem keeps_telling_checkTime (process : EncoderProcess) (start limit : Value) :
    Keeps (Telling spawned proper) (checkTime process start limit) := by
  have read : Keeps (Telling spawned proper) (now process) :=
    fun _ telling => .ok ⟨telling.spawned, telling.proper⟩
  have stopped : Keeps (Telling spawned proper) (do
      terminate process
      throw (.naming limit (.encoder (.timedOut limit))) : Encoding Unit) :=
    (keeps_telling_terminate process).bind fun _ => keeps_throw _
  unfold checkTime
  refine keeps_ite ?_ (keeps_pure _)
  exact read.bind fun _ => (keeps_lift_defect _).bind fun _ =>
    (keeps_lift_defect _).bind fun _ => keeps_ite stopped (keeps_pure _)

theorem keeps_telling_deliver {news : ProgressReport} (holds : proper news) :
    Keeps (Telling spawned proper) (deliver listener news) := by
  cases listener with
  | none => exact keeps_pure _
  | some listen =>
    refine Keeps.bind (keeps_modify fun trace telling => ⟨telling.spawned, ?_⟩) fun _ =>
      keeps_lift _
    intro other present
    rcases List.mem_append.mp present with earlier | last
    · exact telling.proper other earlier
    · exact List.mem_singleton.mp last ▸ holds

theorem keeps_telling_announce
    (sound : ∀ block news, ProgressNews.ofBlock block total = .ok (.report news) → proper news)
    (block : ProgressBlock) : Keeps (Telling spawned proper) (announce listener total block) := by
  intro before telling
  have read : Ensures
      (fun news after => ProgressNews.ofBlock block total = .ok news ∧ before = after)
      (fun _ after => Telling spawned proper after)
      ((liftM (ProgressNews.ofBlock block total) : Encoding ProgressNews).run before) :=
    ensures_lift (fun _ given => ⟨given, rfl⟩) fun _ _ => telling
  refine ensures_bind read ?_
  rintro news _ ⟨given, rfl⟩
  cases news with
  | silent => exact keeps_pure _ before telling
  | unreadable mark => exact keeps_telling_report _ _ before telling
  | report news =>
    exact keeps_telling_deliver (sound block news given) before telling

theorem keeps_telling_absorb
    (sound : ∀ block news, ProgressNews.ofBlock block total = .ok (.report news) → proper news)
    (line : String) : Keeps (Telling spawned proper) (absorb listener total line) := by
  refine keeps_get.bind fun trace => Keeps.bind (keeps_telling_modify (fun _ => rfl) fun _ => rfl)
    fun _ => ?_
  split
  · exact keeps_telling_announce sound _
  · exact keeps_pure _

theorem keeps_telling_readLine
    (sound : ∀ block news, ProgressNews.ofBlock block total = .ok (.report news) → proper news)
    (line : String) :
    Keeps (Telling spawned proper) (readLine process listener total start limit line) := by
  have recorded : Keeps (Telling spawned proper) (record (Text.strip line)) :=
    keeps_telling_modify (fun _ => rfl) fun _ => rfl
  unfold readLine
  exact keeps_ite (recorded.bind fun _ => (keeps_telling_checkTime process start limit).bind
    fun _ => keeps_telling_absorb sound _) (keeps_pure _)

theorem keeps_telling_readLines
    (sound : ∀ block news, ProgressNews.ofBlock block total = .ok (.report news) → proper news)
    (lines : List String) :
    Keeps (Telling spawned proper) (readLines process listener total start limit lines) := by
  induction lines with
  | nil => exact keeps_pure _
  | cons line rest ih => exact (keeps_telling_readLine sound line).bind fun _ => ih

theorem keeps_telling_closing {step : Encoding Unit} (kept : Keeps (Telling spawned proper) step) :
    Keeps (Telling spawned proper) (closing step) := by
  intro before telling
  have ensured := kept before telling
  cases ran : step.run before with
  | ok result middle =>
    have reached := ensured.of_ok ran
    rw [run_closing_of_ok ran]
    exact .ok ⟨reached.spawned, reached.proper⟩
  | error failure middle =>
    have reached := ensured.of_error ran
    rw [run_closing_of_error ran]
    exact .error ⟨reached.spawned, reached.proper⟩

theorem keeps_telling_conclude (process : EncoderProcess) (command : List String) :
    Keeps (Telling spawned proper) (conclude process command) := by
  unfold conclude
  dsimp only
  exact keeps_ite
    ((keeps_telling_report _ _).bind fun _ => keeps_get.bind fun _ => keeps_pure _)
    ((keeps_telling_report _ _).bind fun _ => keeps_throw _)

/-- A run spawns its command with the progress options, and tells nothing but reports of blocks,
however it ends. -/
theorem telling_of_run (process : EncoderProcess) (listener : Option ProgressListener)
    (limit : Value)
    (sound : ∀ block news, ProgressNews.ofBlock block total = .ok (.report news) → proper news)
    (spawning : withProgress? command = some spawned) :
    (traced (run process command listener total limit)).2.Telling spawned proper := by
  have followed : Keeps (Telling spawned proper)
      (follow process listener total (process.clock 0) limit) :=
    (keeps_telling_readLines sound _).bind fun _ => keeps_telling_request _
  have ensured := (keeps_telling_closing followed).bind
    (fun _ => keeps_telling_conclude process command) (begunTrace command spawned)
    ⟨rfl, List.forall_mem_nil _⟩
  rw [← run_of_started spawning] at ensured
  unfold traced
  cases ran : (run process command listener total limit).run {} with
  | ok result after => exact ensured.of_ok ran
  | error failure after => exact ensured.of_error ran

end EncoderRun

end Montage
