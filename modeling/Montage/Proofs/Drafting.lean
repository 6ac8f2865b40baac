import Mathlib.Data.List.Forall2
import Montage.Compile.Draft

/-!
# Steps that succeed and steps that fail

What the success of a step on a draft, or on any other state, says about its parts. A sequence
succeeds exactly when its parts do, each on the state that the one before it left; a plain operation
leaves the state as it is; a step that refuses in some case succeeds only outside that case. In the
same way a sequence fails where one of its parts fails, those before it having succeeded.
-/

namespace Montage

section Plain

variable {ε α β : Type}

/-- A sequence of plain operations succeeds exactly when both parts do. -/
theorem except_bind_eq_ok_iff {first : Except ε α} {next : α → Except ε β} {result : β} :
    first >>= next = .ok result ↔ ∃ value, first = .ok value ∧ next value = .ok result := by
  cases first <;> simp [bind, Except.bind]

theorem except_pure_eq_ok_iff {value result : α} :
    (pure value : Except ε α) = .ok result ↔ value = result := by
  simp [pure, Except.pure]

theorem except_toOption_eq_some_iff {operation : Except ε α} {result : α} :
    operation.toOption = some result ↔ operation = .ok result := by
  cases operation <;> simp [Except.toOption]

/-- An operation that may meet a defect succeeds among the others exactly when it succeeds. -/
theorem liftM_defect_eq_ok_iff {operation : Except Defect α} {result : α} :
    (liftM operation : Except Failure α) = .ok result ↔ operation = .ok result := by
  cases operation with
  | ok value => exact Except.ok.injEq value result ▸ by simp
  | error defect => exact iff_of_false nofun nofun

/-- An operation succeeds on all items of a list exactly when it succeeds on each. -/
theorem except_mapM_eq_ok_iff {operation : α → Except ε β} {items : List α} {results : List β} :
    items.mapM operation = .ok results ↔
      List.Forall₂ (fun item result => operation item = .ok result) items results := by
  induction items generalizing results with
  | nil => simp [pure, Except.pure, eq_comm]
  | cons item items ih =>
    rw [List.mapM_cons, except_bind_eq_ok_iff, List.forall₂_cons_left_iff]
    constructor
    · rintro ⟨first, firstGiven, rest⟩
      obtain ⟨others, othersGiven, rest⟩ := except_bind_eq_ok_iff.mp rest
      exact ⟨first, others, firstGiven, ih.mp othersGiven, (except_pure_eq_ok_iff.mp rest).symm⟩
    · rintro ⟨first, others, firstGiven, othersGiven, rfl⟩
      refine ⟨first, firstGiven, ?_⟩
      rw [ih.mpr othersGiven]
      rfl

/-- What an operation gives for a list it gives for one of the items. -/
theorem except_exists_of_mem_mapM {operation : α → Except ε β} {items : List α} {results : List β}
    {result : β} (given : items.mapM operation = .ok results) (present : result ∈ results) :
    ∃ item ∈ items, operation item = .ok result := by
  have each := except_mapM_eq_ok_iff.mp given
  clear given
  induction each with
  | nil => cases present
  | @cons item _ items _ first _ ih =>
    rcases List.mem_cons.mp present with rfl | later
    · exact ⟨item, List.mem_cons_self, first⟩
    · obtain ⟨found, foundIn, isFound⟩ := ih later
      exact ⟨found, List.mem_cons_of_mem item foundIn, isFound⟩

/-- What an operation gives for the item at a position stands at that position. -/
theorem except_getElem?_of_mapM {operation : α → Except ε β} {items : List α} {results : List β}
    (given : items.mapM operation = .ok results) {position : Nat} {item : α}
    (found : items[position]? = some item) :
    ∃ result, results[position]? = some result ∧ operation item = .ok result := by
  have each := except_mapM_eq_ok_iff.mp given
  clear given
  induction each generalizing position with
  | nil => cases found
  | @cons head result _ _ first _ ih =>
    cases position with
    | zero =>
      obtain rfl := Option.some.inj found
      exact ⟨result, rfl, first⟩
    | succ position => exact ih found

/-- A sequence of plain operations fails exactly when its first part fails, or the next one. -/
theorem except_bind_eq_error_iff {first : Except ε α} {next : α → Except ε β} {failure : ε} :
    first >>= next = .error failure ↔
      first = .error failure ∨ ∃ value, first = .ok value ∧ next value = .error failure := by
  cases first <;> simp [bind, Except.bind]

/-- A result that is only put in another form is missing as it was before. -/
theorem except_bind_pure_eq_error_iff {first : Except ε α} {value : α → β} {failure : ε} :
    (first >>= fun found => pure (value found)) = .error failure ↔ first = .error failure := by
  cases first with
  | ok found => exact iff_of_false nofun nofun
  | error other => exact Iff.of_eq (by simp [bind, Except.bind])

theorem liftM_defect_eq_error_iff {operation : Except Defect α} {failure : Failure} :
    (liftM operation : Except Failure α) = .error failure ↔
      ∃ defect, operation = .error defect ∧ .defect defect = failure := by
  cases operation with
  | ok value => exact iff_of_false nofun nofun
  | error defect => exact Except.error.injEq _ failure ▸ by simp

/-- An operation that fails on some items of a list fails on one of them. -/
theorem except_exists_of_mapM_error {operation : α → Except ε β} {items : List α} {failure : ε}
    (failed : items.mapM operation = .error failure) :
    ∃ item ∈ items, operation item = .error failure := by
  induction items with
  | nil => cases failed
  | cons item items ih =>
    rw [List.mapM_cons] at failed
    rcases except_bind_eq_error_iff.mp failed with first | ⟨_, _, failed⟩
    · exact ⟨item, List.mem_cons_self, first⟩
    · rcases except_bind_eq_error_iff.mp failed with later | ⟨_, _, none⟩
      · obtain ⟨found, foundIn, isFound⟩ := ih later
        exact ⟨found, List.mem_cons_of_mem item foundIn, isFound⟩
      · cases none

end Plain

section Stateful

variable {σ α β : Type} {before after : σ}

theorem run_bind_eq_ok_iff {step : EStateM Failure σ α} {next : α → EStateM Failure σ β}
    {result : β} :
    (step >>= next).run before = .ok result after ↔
      ∃ value middle, step.run before = .ok value middle ∧
        (next value).run middle = .ok result after := by
  rw [EStateM.run_bind]
  cases step.run before with
  | ok value middle =>
    constructor
    · exact fun rest => ⟨value, middle, rfl, rest⟩
    · rintro ⟨_, _, same, rest⟩
      cases same
      exact rest
  | error failure middle => exact iff_of_false nofun nofun

theorem run_pure_eq_ok_iff {value result : α} :
    (pure value : EStateM Failure σ α).run before = .ok result after ↔
      value = result ∧ before = after := by
  simp [EStateM.run_pure]

theorem run_throw_ne_ok {failure : Failure} {result : α} :
    (throw failure : EStateM Failure σ α).run before ≠ .ok result after :=
  nofun

theorem run_lift_eq_ok_iff {operation : Except Failure α} {result : α} :
    (liftM operation : EStateM Failure σ α).run before = .ok result after ↔
      operation = .ok result ∧ before = after := by
  cases operation with
  | ok value => exact run_pure_eq_ok_iff.trans (by simp)
  | error failure => exact iff_of_false run_throw_ne_ok (by simp)

theorem run_lift_defect_eq_ok_iff {operation : Except Defect α} {result : α} :
    (liftM operation : EStateM Failure σ α).run before = .ok result after ↔
      operation = .ok result ∧ before = after := by
  cases operation with
  | ok value => exact run_pure_eq_ok_iff.trans (by simp)
  | error defect => exact iff_of_false run_throw_ne_ok (by simp)

/-- A step that starts with a refusal in some case succeeds only outside that case. -/
theorem run_refuse_eq_ok_iff {refused : Prop} [Decidable refused] {failure : Failure}
    {next : β → EStateM Failure σ α} {rest : EStateM Failure σ α} {result : α} :
    (if refused then throw failure >>= next else rest).run before = .ok result after ↔
      ¬ refused ∧ rest.run before = .ok result after := by
  split
  · next holds => exact iff_of_false nofun (fun both => both.1 holds)
  · next fails => exact (and_iff_right fails).symm

theorem run_refuse_pure_eq_ok_iff {refused : Prop} [Decidable refused] {failure : Failure}
    {result : PUnit} :
    (if refused then throw failure else pure PUnit.unit : EStateM Failure σ PUnit).run before =
      .ok result after ↔ ¬ refused ∧ before = after := by
  split
  · next holds => exact iff_of_false run_throw_ne_ok (fun both => both.1 holds)
  · next fails => simp [fails]

theorem run_bind_eq_error_iff {step : EStateM Failure σ α} {next : α → EStateM Failure σ β}
    {failure : Failure} :
    (step >>= next).run before = .error failure after ↔
      step.run before = .error failure after ∨ ∃ value middle,
        step.run before = .ok value middle ∧ (next value).run middle = .error failure after := by
  rw [EStateM.run_bind]
  cases step.run before with
  | ok value middle =>
    constructor
    · exact fun rest => .inr ⟨value, middle, rfl, rest⟩
    · rintro (first | ⟨_, _, same, rest⟩)
      · cases first
      · cases same
        exact rest
  | error other middle =>
    constructor
    · intro same
      cases same
      exact .inl rfl
    · rintro (first | ⟨_, _, same, _⟩)
      · cases first
        rfl
      · cases same

theorem run_pure_ne_error {value : α} {failure : Failure} :
    (pure value : EStateM Failure σ α).run before ≠ .error failure after :=
  nofun

theorem run_bind_pure_eq_error_iff {step : EStateM Failure σ α} {value : α → β}
    {failure : Failure} :
    (step >>= fun found => pure (value found)).run before = .error failure after ↔
      step.run before = .error failure after := by
  rw [run_bind_eq_error_iff]
  exact or_iff_left fun ⟨_, _, _, never⟩ => run_pure_ne_error never

theorem run_lift_eq_error_iff {operation : Except Failure α} {failure : Failure} :
    (liftM operation : EStateM Failure σ α).run before = .error failure after ↔
      operation = .error failure ∧ before = after := by
  cases operation with
  | ok value => exact iff_of_false run_pure_ne_error (by simp)
  | error other =>
    show EStateM.Result.error other before = _ ↔ _
    simp

theorem run_lift_defect_eq_error_iff {operation : Except Defect α} {failure : Failure} :
    (liftM operation : EStateM Failure σ α).run before = .error failure after ↔
      ∃ defect, operation = .error defect ∧ .defect defect = failure ∧ before = after := by
  cases operation with
  | ok value => exact iff_of_false run_pure_ne_error (by simp)
  | error defect =>
    show EStateM.Result.error (Failure.defect defect) before = _ ↔ _
    simp

/-- A step that starts with a refusal in some case fails in that case, or where the rest does. -/
theorem run_refuse_eq_error_iff {refused : Prop} [Decidable refused] {cause failure : Failure}
    {next : β → EStateM Failure σ α} {rest : EStateM Failure σ α} :
    (if refused then throw cause >>= next else rest).run before = .error failure after ↔
      refused ∧ cause = failure ∧ before = after ∨
        ¬ refused ∧ rest.run before = .error failure after := by
  split
  · next holds =>
    show EStateM.Result.error cause before = _ ↔ _
    simp [holds]
  · next fails => simp [fails]

theorem run_refuse_pure_eq_error_iff {refused : Prop} [Decidable refused]
    {cause failure : Failure} :
    (if refused then throw cause else pure PUnit.unit : EStateM Failure σ PUnit).run before =
      .error failure after ↔ refused ∧ cause = failure ∧ before = after := by
  split
  · next holds =>
    show EStateM.Result.error cause before = _ ↔ _
    simp [holds]
  · next fails => exact iff_of_false run_pure_ne_error (fun both => fails both.1)

/-! ## Either way -/

/-- What holds of the end of a step: one thing where it succeeds, another where it fails. -/
inductive Ensures (done : α → σ → Prop) (failed : Failure → σ → Prop) :
    EStateM.Result Failure σ α → Prop
  | ok {value : α} {after : σ} : done value after → Ensures done failed (.ok value after)
  | error {failure : Failure} {after : σ} : failed failure after →
      Ensures done failed (.error failure after)

theorem Ensures.of_ok {ended : EStateM.Result Failure σ α} {done : α → σ → Prop}
    {failed : Failure → σ → Prop} {value : α} (ensured : Ensures done failed ended)
    (succeeded : ended = .ok value after) : done value after := by
  subst succeeded
  cases ensured with
  | ok reached => exact reached

theorem Ensures.of_error {ended : EStateM.Result Failure σ α} {done : α → σ → Prop}
    {failed : Failure → σ → Prop} {failure : Failure} (ensured : Ensures done failed ended)
    (broken : ended = .error failure after) : failed failure after := by
  subst broken
  cases ensured with
  | error reached => exact reached

theorem Ensures.imp {ended : EStateM.Result Failure σ α} {done weaker : α → σ → Prop}
    {failed looser : Failure → σ → Prop} (ensured : Ensures done failed ended)
    (onSuccess : ∀ value after, done value after → weaker value after)
    (onFailure : ∀ failure after, failed failure after → looser failure after) :
    Ensures weaker looser ended := by
  cases ensured with
  | ok reached => exact .ok (onSuccess _ _ reached)
  | error broken => exact .error (onFailure _ _ broken)

/-- A sequence ends as its first part does where that fails, and as what follows otherwise. -/
theorem ensures_bind {step : EStateM Failure σ α} {next : α → EStateM Failure σ β}
    {middle : α → σ → Prop} {done : β → σ → Prop} {failed : Failure → σ → Prop}
    (first : Ensures middle failed (step.run before))
    (rest : ∀ value state, middle value state → Ensures done failed ((next value).run state)) :
    Ensures done failed ((step >>= next).run before) := by
  rw [EStateM.run_bind]
  cases ended : step.run before with
  | ok value state => exact rest value state (first.of_ok ended)
  | error failure state => exact .error (first.of_error ended)

/-- A plain operation leaves the state as it is, whether it succeeds or fails. -/
theorem ensures_lift {operation : Except Failure α} {done : α → σ → Prop}
    {failed : Failure → σ → Prop} (given : ∀ value, operation = .ok value → done value before)
    (refused : ∀ failure, operation = .error failure → failed failure before) :
    Ensures done failed ((liftM operation : EStateM Failure σ α).run before) := by
  cases operation with
  | ok value => exact .ok (given value rfl)
  | error failure => exact .error (refused failure rfl)

/-- A sequence that begins with a plain operation goes on in the same state, or fails in it. -/
theorem ensures_lift_bind {operation : Except Failure α} {next : α → EStateM Failure σ β}
    {done : β → σ → Prop} {failed : Failure → σ → Prop}
    (given : ∀ value, operation = .ok value → Ensures done failed ((next value).run before))
    (refused : ∀ failure, operation = .error failure → failed failure before) :
    Ensures done failed ((liftM operation >>= next).run before) := by
  cases operation with
  | ok value => exact given value rfl
  | error failure => exact .error (refused failure rfl)

theorem ensures_get_bind {next : σ → EStateM Failure σ β} {done : β → σ → Prop}
    {failed : Failure → σ → Prop} (rest : Ensures done failed ((next before).run before)) :
    Ensures done failed ((get >>= next).run before) :=
  rest

/-- A change of the state does not fail. -/
theorem ensures_modify_bind {change : σ → σ} {next : PUnit → EStateM Failure σ β}
    {done : β → σ → Prop} {failed : Failure → σ → Prop}
    (rest : Ensures done failed ((next ⟨⟩).run (change before))) :
    Ensures done failed ((modify change >>= next).run before) :=
  rest

/-! ## Whatever happens -/

/-- A step that keeps what holds of the state, whether it succeeds or fails. -/
def Keeps (kept : σ → Prop) (step : EStateM Failure σ α) : Prop :=
  ∀ before, kept before →
    Ensures (fun _ after => kept after) (fun _ after => kept after) (step.run before)

variable {kept : σ → Prop}

theorem keeps_pure (value : α) : Keeps kept (pure value : EStateM Failure σ α) :=
  fun _ holds => .ok holds

theorem keeps_throw (failure : Failure) : Keeps kept (throw failure : EStateM Failure σ α) :=
  fun _ holds => .error holds

theorem keeps_get : Keeps kept (get : EStateM Failure σ σ) :=
  fun _ holds => .ok holds

theorem keeps_modify {change : σ → σ} (safe : ∀ state, kept state → kept (change state)) :
    Keeps kept (modify change : EStateM Failure σ PUnit) :=
  fun before holds => .ok (safe before holds)

theorem keeps_lift (operation : Except Failure α) :
    Keeps kept (liftM operation : EStateM Failure σ α) :=
  fun _ holds => ensures_lift (fun _ _ => holds) (fun _ _ => holds)

theorem keeps_lift_defect (operation : Except Defect α) :
    Keeps kept (liftM operation : EStateM Failure σ α) := by
  intro before holds
  cases operation with
  | ok value => exact .ok holds
  | error defect => exact .error holds

theorem Keeps.bind {step : EStateM Failure σ α} {next : α → EStateM Failure σ β}
    (first : Keeps kept step) (rest : ∀ value, Keeps kept (next value)) :
    Keeps kept (step >>= next) :=
  fun before holds => ensures_bind (first before holds) fun value state reached =>
    rest value state reached

theorem keeps_ite {condition : Prop} [Decidable condition] {step other : EStateM Failure σ α}
    (first : Keeps kept step) (second : Keeps kept other) :
    Keeps kept (if condition then step else other) := by
  split
  · exact first
  · exact second

/-- A refusal that a step starts with in some case does nothing itself. -/
theorem keeps_refuse {refused : Prop} [Decidable refused] {failure : Failure}
    {next : β → EStateM Failure σ α} {rest : EStateM Failure σ α} (reached : Keeps kept rest) :
    Keeps kept (if refused then throw failure >>= next else rest) :=
  keeps_ite (fun _ holds => .error holds) reached

/-! ## Without failure -/

/-- A step that does not fail, and keeps what holds of the state. -/
def Completes (kept : σ → Prop) (step : EStateM Failure σ α) : Prop :=
  ∀ before, kept before → Ensures (fun _ after => kept after) (fun _ _ => False) (step.run before)

theorem Completes.keeps {step : EStateM Failure σ α} (completes : Completes kept step) :
    Keeps kept step :=
  fun before holds => (completes before holds).imp (fun _ _ reached => reached)
    fun _ _ never => never.elim

theorem completes_pure (value : α) : Completes kept (pure value : EStateM Failure σ α) :=
  fun _ holds => .ok holds

theorem completes_modify {change : σ → σ} (safe : ∀ state, kept state → kept (change state)) :
    Completes kept (modify change : EStateM Failure σ PUnit) :=
  fun before holds => .ok (safe before holds)

theorem Completes.bind {step : EStateM Failure σ α} {next : α → EStateM Failure σ β}
    (first : Completes kept step) (rest : ∀ value, Completes kept (next value)) :
    Completes kept (step >>= next) :=
  fun before holds => ensures_bind (first before holds) fun value state reached =>
    rest value state reached

/-- A loop does not fail if no turn of it does. -/
theorem completes_forIn {ι : Type} {items : List ι} {turn : ι → β → EStateM Failure σ (ForInStep β)}
    (each : ∀ item reached, Completes kept (turn item reached)) (start : β) :
    Completes kept (forIn items start turn) := by
  induction items generalizing start with
  | nil => exact completes_pure start
  | cons item items ih =>
    rw [List.forIn_cons]
    refine (each item start).bind fun reached => ?_
    cases reached with
    | done last => exact completes_pure last
    | yield next => exact ih next

/-- What follows a step that does not fail decides how the sequence ends. -/
theorem Completes.ensures_bind {step : EStateM Failure σ α} {next : α → EStateM Failure σ β}
    {done : β → σ → Prop} {failed : Failure → σ → Prop} (first : Completes kept step)
    (holds : kept before)
    (rest : ∀ value state, kept state → Ensures done failed ((next value).run state)) :
    Ensures done failed ((step >>= next).run before) :=
  Montage.ensures_bind ((first before holds).imp (fun _ _ reached => reached)
    fun _ _ never => never.elim) rest

end Stateful

namespace Drafting

variable {α : Type} {draft after : Draft}

theorem run_addNode_eq_ok_iff {node : Node} {position : Nat} :
    (addNode node).run draft = .ok position after ↔
      draft.graph.nodes.length = position ∧
        { draft with graph := draft.graph.push node } = after := by
  simp [addNode, EStateM.run]

/-- Whether a step succeeds on a draft with a result that passes a test. -/
def succeeds (step : Drafting α) (draft : Draft) (test : α → Bool) : Bool :=
  match step.run draft with
  | .ok result _ => test result
  | .error .. => false

theorem exists_of_succeeds {step : Drafting α} {test : α → Bool}
    (ok : step.succeeds draft test = true) :
    ∃ result after, step.run draft = .ok result after ∧ test result = true := by
  unfold succeeds at ok
  split at ok
  · next ran => exact ⟨_, _, ran, ok⟩
  · cases ok

/-- A report leaves the graph as it is. -/
theorem graph_of_run_report {level : LogLevel} {reporter text : String} {result : Unit}
    (reported : (report level reporter text).run draft = .ok result after) :
    after.graph = draft.graph := by
  cases reported
  rfl

theorem graph_of_run_noteCheck {base : Path} {id : Value} {result : Unit}
    (noted : (noteCheck base id).run draft = .ok result after) : after.graph = draft.graph := by
  cases noted
  rfl

end Drafting

end Montage
