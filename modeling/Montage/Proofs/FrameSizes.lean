import Montage.Proofs.SavedProject

/-!
# What is read as a frame size

A value that is present names a size by two sides that denote whole numbers. A side that is infinite
denotes none that can be told, which is found as a defect if it is reached; every other value that
names no positive size is refused, unless the message cannot spell it. Main statement:
`outcome_of_ofValue`.
-/

namespace Montage.FrameSize

variable {value width height : Value} {size : FrameSize}

/-! ## Sides -/

theorem wholeOf_eq_overflow_iff :
    wholeOf value = .error .overflow ↔ ∃ negative, value = .real (.infinity negative) := by
  constructor
  · intro failed
    cases value with
    | real x =>
      cases x with
      | infinity negative => exact ⟨negative, rfl⟩
      | nan | finite => cases failed
    | text text =>
      rw [wholeOf] at failed
      split at failed <;> cases failed
    | null | bool | int | list | object => cases failed
  · rintro ⟨negative, rfl⟩
    rfl

theorem ofSides_eq_ok_iff : ofSides width height = .ok size ↔
    wholeOf width = .ok size.width ∧ wholeOf height = .ok size.height := by
  constructor
  · intro read
    obtain ⟨w, wide, read⟩ := except_bind_eq_ok_iff.mp read
    obtain ⟨h, high, read⟩ := except_bind_eq_ok_iff.mp read
    obtain rfl := except_pure_eq_ok_iff.mp read
    exact ⟨wide, high⟩
  · rintro ⟨wide, high⟩
    rw [ofSides, wide, high]
    rfl

/-- The sides are read from the left, up to the first that denotes no whole number. -/
theorem ofSides_eq_overflow_iff : ofSides width height = .error .overflow ↔
    (∃ negative, width = .real (.infinity negative)) ∨
      (∃ n, wholeOf width = .ok n) ∧ ∃ negative, height = .real (.infinity negative) := by
  rw [← wholeOf_eq_overflow_iff, ← wholeOf_eq_overflow_iff]
  unfold ofSides
  cases wholeOf width with
  | error defect => simp [bind, Except.bind]
  | ok n => cases wholeOf height <;> simp [bind, Except.bind, pure, Except.pure]

/-- Only a list has sides that are no texts. -/
theorem eq_list_of_sides? (found : sides? value = some (width, height))
    (real : ∃ x, width = .real x ∨ height = .real x) : value = .list [width, height] := by
  obtain ⟨x, real⟩ := real
  unfold sides? at found
  split at found <;> cases found
  · rcases real with absurdity | absurdity <;> cases absurdity
  · rfl
  · rcases real with absurdity | absurdity <;> cases absurdity

/-! ## Values -/

/-- Whether a value names a size: two sides that denote its width and its height. -/
def Names (value : Value) (size : FrameSize) : Prop :=
  ∃ width height, sides? value = some (width, height) ∧ wholeOf width = .ok size.width ∧
    wholeOf height = .ok size.height

structure Positive (size : FrameSize) : Prop where
  width : 0 < size.width
  height : 0 < size.height

/-- A list of two sides of which the first that denotes no whole number is infinite. -/
inductive Endless : Value → Prop
  | width (negative : Bool) (height : Value) : Endless (.list [.real (.infinity negative), height])
  | height {width : Value} {n : Int} (wide : wholeOf width = .ok n) (negative : Bool) :
      Endless (.list [width, .real (.infinity negative)])

/-- A value that is present, but neither names a positive size nor reaches an infinite side. -/
structure Unusable (value : Value) : Prop where
  present : value.isPresent = true
  notEndless : ¬ Endless value
  notPositive : ∀ size, Names value size → ¬ size.Positive

theorem endless_iff : Endless value ↔ ∃ width height, sides? value = some (width, height) ∧
    ofSides width height = .error .overflow := by
  simp only [ofSides_eq_overflow_iff]
  constructor
  · rintro (⟨negative, height⟩ | ⟨wide, negative⟩)
    · exact ⟨_, _, rfl, .inl ⟨negative, rfl⟩⟩
    · exact ⟨_, _, rfl, .inr ⟨⟨_, wide⟩, negative, rfl⟩⟩
  · rintro ⟨width, height, found, ⟨negative, rfl⟩ | ⟨⟨n, wide⟩, negative, rfl⟩⟩
    · rw [eq_list_of_sides? found ⟨_, .inl rfl⟩]
      exact .width negative height
    · rw [eq_list_of_sides? found ⟨_, .inr rfl⟩]
      exact .height wide negative

/-- A value that counts as absent names no size. -/
theorem Names.isPresent (names : Names value size) : value.isPresent = true := by
  obtain ⟨width, height, found, wide, -⟩ := names
  unfold sides? at found
  split at found
  · next text =>
    refine bne_iff_ne.mpr ?_
    rintro rfl
    cases found
    cases wide
  · rfl
  · rfl
  · cases found

theorem Endless.isPresent (endless : Endless value) : value.isPresent = true := by
  cases endless <;> rfl

/-! ## Outcomes -/

/-- A value that is present is read by its sides. -/
theorem ofValue_of_sides (present : value.isPresent = true)
    (found : sides? value = some (width, height)) :
    ofValue value = match ofSides width height with
      | .error .overflow => .error (.defect .overflow)
      | .error _ => refuse value
      | .ok size =>
        if size.width ≤ 0 ∨ size.height ≤ 0 then refuse value else .ok (some size) := by
  simp only [ofValue, present, found]
  rfl

theorem ofValue_of_absent (absent : value.isPresent = false) : ofValue value = .ok none := by
  rw [ofValue, absent]
  rfl

theorem ofValue_of_names (names : Names value size) (positive : size.Positive) :
    ofValue value = .ok (some size) := by
  have present := names.isPresent
  obtain ⟨width, height, found, both⟩ := names
  have large : ¬ (size.width ≤ 0 ∨ size.height ≤ 0) := by
    have wide := positive.width
    have high := positive.height
    omega
  rw [ofValue_of_sides present found, ofSides_eq_ok_iff.mpr both]
  exact if_neg large

theorem ofValue_of_endless (endless : Endless value) :
    ofValue value = .error (.defect .overflow) := by
  obtain ⟨width, height, found, overflow⟩ := endless_iff.mp endless
  rw [ofValue_of_sides endless.isPresent found, overflow]

theorem ofValue_of_unusable (unusable : Unusable value) : ofValue value = refuse value := by
  cases found : sides? value with
  | none => simp only [ofValue, unusable.present, found]; rfl
  | some both =>
    obtain ⟨width, height⟩ := both
    rw [ofValue_of_sides unusable.present found]
    split
    · next overflow => exact absurd (endless_iff.mpr ⟨_, _, found, overflow⟩) unusable.notEndless
    · rfl
    · next size read =>
      have small : size.width ≤ 0 ∨ size.height ≤ 0 := by
        by_contra large
        have positive : size.Positive := ⟨by omega, by omega⟩
        exact unusable.notPositive size ⟨_, _, found, ofSides_eq_ok_iff.mp read⟩ positive
      exact if_pos small

theorem ofValue_of_spellable (unusable : Unusable value) (spellable : value.isSpellable = true) :
    ofValue value = .error (.edit (.frameSize value)) := by
  rw [ofValue_of_unusable unusable, refuse, rejectNaming, Failure.naming, spellable]
  rfl

theorem ofValue_of_unspellable (unusable : Unusable value) (long : value.isSpellable = false) :
    ofValue value = .error (.defect .badValue) := by
  rw [ofValue_of_unusable unusable, refuse, rejectNaming, Failure.naming, long]
  rfl

/-- A value counts as absent, names a positive size, has an infinite side that is reached, or is
unusable. -/
theorem value_cases (value : Value) : value.isPresent = false ∨
    (∃ size, Names value size ∧ size.Positive) ∨ Endless value ∨ Unusable value := by
  cases present : value.isPresent with
  | false => exact .inl rfl
  | true =>
    by_cases positive : ∃ size, Names value size ∧ size.Positive
    · exact .inr (.inl positive)
    · by_cases endless : Endless value
      · exact .inr (.inr (.inl endless))
      · refine .inr (.inr (.inr ⟨present, endless, fun size names large => ?_⟩))
        exact positive ⟨size, names, large⟩

-- A height of zero is refused, but the message cannot name this width.
example : ofValue (.list [.int (Nat.pow 10 5000), .int 0]) = .error (.defect .badValue) := by
  decide +kernel

/-- Reading ends in a defect exactly where an infinite side is reached, or a refusal cannot be
told. -/
theorem ofValue_eq_defect_iff : (∃ cause, ofValue value = .error (.defect cause)) ↔
    Endless value ∨ Unusable value ∧ value.isSpellable = false := by
  constructor
  · rintro ⟨cause, failed⟩
    rcases value_cases value with absent | ⟨size, names, positive⟩ | endless | unusable
    · rw [ofValue_of_absent absent] at failed
      cases failed
    · rw [ofValue_of_names names positive] at failed
      cases failed
    · exact .inl endless
    · cases spellable : value.isSpellable with
      | false => exact .inr ⟨unusable, rfl⟩
      | true =>
        rw [ofValue_of_spellable unusable spellable] at failed
        cases failed
  · rintro (endless | ⟨unusable, long⟩)
    · exact ⟨_, ofValue_of_endless endless⟩
    · exact ⟨_, ofValue_of_unspellable unusable long⟩

end Montage.FrameSize

namespace Montage

/-! ## Members that are set -/

namespace Value

variable {members : List (String × Value)} {name other : String} {value : Value}

/-- Setting a member keeps the names in their places. -/
theorem find?_setMember (wanted : String) :
    (members.map fun entry => if entry.1 == name then (name, value) else entry).find?
        (fun entry => entry.1 == wanted) =
      (members.find? fun entry => entry.1 == wanted).map fun entry =>
        if entry.1 == name then (name, value) else entry := by
  rw [List.find?_map]
  congr 2
  funext entry
  by_cases same : entry.1 = name
  · simp [same]
  · simp [same]

theorem lookup_setMember_self : lookup (setMember members name value) name = some value := by
  unfold lookup setMember
  split
  · next present =>
    obtain ⟨entry, found⟩ := Option.isSome_iff_exists.mp
      (List.find?_isSome.trans List.any_eq_true.symm |>.mpr present)
    rw [find?_setMember, found, Option.map_some, if_pos (List.find?_some found)]
    rfl
  · next missing =>
    have none : (members.find? fun entry => entry.1 == name) = none := by
      rw [List.find?_eq_none]
      exact fun entry listed same => missing (List.any_eq_true.mpr ⟨entry, listed, same⟩)
    simp [List.find?_append, none]

theorem lookup_setMember_of_ne (differ : other ≠ name) :
    lookup (setMember members name value) other = lookup members other := by
  unfold lookup setMember
  split
  · rw [find?_setMember]
    cases found : members.find? fun entry => entry.1 == other with
    | none => rfl
    | some entry =>
      have same := List.find?_some found
      rw [beq_iff_eq] at same
      simp [same, differ]
  · simp [List.find?_append, Ne.symm differ]

end Value

namespace Project

variable {members : List (String × Value)} {base : Path} {project : Project} {named : Value}

theorem ofValue_setMember (valid : ofValue (.object members) base = .ok project) :
    ofValue (.object (Value.setMember members "resolution" named)) base =
      (frameOf named).map fun frame => { project with frame := frame } := by
  have other {name : String} (differ : name ≠ "resolution") :
      (Value.object (Value.setMember members "resolution" named)).member name =
        (Value.object members).member name := by
    rw [Value.member, Value.lookup_setMember_of_ne differ, Value.member]
  have set : (Value.object (Value.setMember members "resolution" named)).member "resolution" =
      .ok named := by
    rw [Value.member, Value.lookup_setMember_self]
    rfl
  obtain ⟨parts, rfl, -⟩ := parts_of_ofValue valid
  have kept : Parts (.object (Value.setMember members "resolution" named)) project := by
    refine ⟨?_, ?_, (other (by decide)).trans parts.directory,
      (other (by decide)).trans parts.episode⟩
    · rw [other (by decide)]
      exact parts.cuts
    · rw [other (by decide)]
      exact parts.fade
  exact ofValue_of_parts kept set

theorem ofValue_setMember_of_ok (valid : ofValue (.object members) base = .ok project)
    {size : Option FrameSize} (read : FrameSize.ofValue named = .ok size) :
    ofValue (.object (Value.setMember members "resolution" named)) base =
      .ok { project with frame := (size.map FrameSize.sides).getD [] } := by
  rw [ofValue_setMember valid, frameOf, read]
  rfl

theorem ofValue_setMember_eq_error_iff (valid : ofValue (.object members) base = .ok project)
    {failure : Failure} :
    ofValue (.object (Value.setMember members "resolution" named)) base = .error failure ↔
      FrameSize.ofValue named = .error failure := by
  rw [ofValue_setMember valid, frameOf]
  cases FrameSize.ofValue named with
  | ok size =>
    constructor <;> intro failed <;> cases failed
  | error other => simp [bind, Except.bind, Except.map]

/-- How an edit list is read that was given a frame size, and gives a project otherwise. -/
structure Framed (project : Project) (base : Path) (named : Value)
    (read : Except Failure Project) : Prop where
  outcome :
    named.isPresent = false ∧ read = .ok { project with frame := [] } ∨
    (∃ size : FrameSize, FrameSize.Names named size ∧ size.Positive ∧
      read = .ok { project with frame := size.sides }) ∨
    FrameSize.Unusable named ∧ read = .error (.edit (.frameSize named)) ∨
    FrameSize.Endless named ∧ read = .error (.defect .overflow) ∨
    FrameSize.Unusable named ∧ named.isSpellable = false ∧ read = .error (.defect .badValue)
  defect_iff : (∃ cause, read = .error (.defect cause)) ↔
    FrameSize.Endless named ∨ FrameSize.Unusable named ∧ named.isSpellable = false
  /-- What the project is saved as is read with the same frame size. -/
  saved : ∀ found, read = .ok found →
    ∃ again, ofValue found.toValue base = .ok again ∧ again.frame = found.frame

/-- Whatever an edit list is given as its frame size, it is read without one or with a positive one,
which is saved as well, or is refused; unless an infinite side is reached, or the refusal cannot be
told. Without that member there is no frame size. -/
theorem framed_of_ofValue (valid : ofValue (.object members) base = .ok project) :
    (Value.lookup members "resolution" = none → project.frame = []) ∧
      ∀ named, Framed project base named
        (ofValue (.object (Value.setMember members "resolution" named)) base) := by
  constructor
  · intro missing
    obtain ⟨-, -, named, found, read⟩ := parts_of_ofValue valid
    rw [Value.member, missing] at found
    cases found
    exact (Except.ok.inj read).symm
  · intro named
    have fails {failure : Failure} :
        ofValue (.object (Value.setMember members "resolution" named)) base = .error failure ↔
          FrameSize.ofValue named = .error failure := ofValue_setMember_eq_error_iff valid
    refine ⟨?outcome, ?defect, ?saved⟩
    case outcome =>
      rcases FrameSize.value_cases named with absent | ⟨size, names, positive⟩ | endless | unusable
      · exact .inl ⟨absent, ofValue_setMember_of_ok valid (FrameSize.ofValue_of_absent absent)⟩
      · exact .inr (.inl ⟨size, names, positive,
          ofValue_setMember_of_ok valid (FrameSize.ofValue_of_names names positive)⟩)
      · have read := fails.mpr (FrameSize.ofValue_of_endless endless)
        exact .inr (.inr (.inr (.inl ⟨endless, read⟩)))
      · cases spellable : named.isSpellable with
        | true =>
          have read := fails.mpr (FrameSize.ofValue_of_spellable unusable spellable)
          exact .inr (.inr (.inl ⟨unusable, read⟩))
        | false =>
          have read := fails.mpr (FrameSize.ofValue_of_unspellable unusable spellable)
          exact .inr (.inr (.inr (.inr ⟨unusable, rfl, read⟩)))
    case defect =>
      simp only [fails]
      exact FrameSize.ofValue_eq_defect_iff
    case saved =>
      intro found read
      obtain ⟨settled, same⟩ := settled_of_ofValue read
      rw [← same]
      exact ⟨_, ofValue_toValue_of_settled settled, rfl⟩

/-- A project of which there is only a name. -/
def pilot : Project where
  cuts := []
  episode := .text "pilot"

/-- An edit list with nothing but a name takes a frame size that is written as text. -/
theorem framed_pilot :
    ofValue (.object [("id", .text "pilot")]) ⟨0, []⟩ = .ok pilot ∧
      Framed pilot ⟨0, []⟩ (.text "1920X1080")
        (ofValue (.object [("id", .text "pilot"), ("resolution", .text "1920X1080")]) ⟨0, []⟩) := by
  have valid : ofValue (.object [("id", .text "pilot")]) ⟨0, []⟩ = .ok pilot := by decide +kernel
  exact ⟨valid, (framed_of_ofValue valid).2 (.text "1920X1080")⟩

/-- A width that is infinite is no reason for a refusal, but a defect. -/
theorem overflow_endlessWidth :
    ofValue (.object []) ⟨0, []⟩ = .ok { cuts := [] } ∧
      ofValue (.object [("resolution", .list [.real (.infinity false), .int 1080])]) ⟨0, []⟩ =
        .error (.defect .overflow) := by
  decide +kernel

end Project

end Montage
