import Mathlib.Data.Rat.Cast.Order
import Mathlib.Tactic.NormNum
import Mathlib.Tactic.Positivity
import Mathlib.Tactic.Ring
import Montage.Proofs.CommandLayout
import Montage.Proofs.DecimalText
import Montage.Proofs.OpOrigins
import Montage.Proofs.TotalLength

/-!
# The lengths of fades as they are printed

A fade or a crossfade is only written if its length is greater than zero. The length is compared
as it is and written with six decimal places, so a length of at most half a millionth of a second
passes the comparison and is written as zero. Main statements: `pos_value?_iff`, and
`printed_of_run_build` for the fades of a whole graph.
-/

namespace Montage

open Drafting

/-! ## Lengths -/

theorem Number.pos_of_le_eq_false {negative : Bool} {units : Nat} {fits : Representable units}
    (compared : (Number.real (.finite negative units fits)).le (.whole 0) = false) :
    negative = false ∧ 0 < units := by
  rw [le_of_compare? rfl, decide_eq_false_iff_not, Int.zero_mul, Int.not_le] at compared
  cases negative with
  | false => exact ⟨rfl, Int.natCast_pos.mp compared⟩
  | true => exact absurd compared (Int.not_lt.mpr (Int.neg_nonpos_of_nonneg (Int.natCast_nonneg _)))

/-- To six places, what is greater than half a millionth is written as more than zero. -/
theorem Binary64.placeCount_pos_iff {units : Nat} :
    (0 : ℚ) < placeCount 6 units / 10 ^ 6 ↔ 1 / 2000000 < (units / one : ℚ) := by
  have unit := one_pos_rat
  have millionths : (units : ℚ) * 2000000 = (2 * (units * 10 ^ 6) : Nat) := by
    push_cast
    ring
  rw [div_pos_iff_of_pos_right (by positivity), Nat.cast_pos, Nat.pos_iff_ne_zero, Ne,
    placeCount_eq_zero_iff, Nat.not_le, div_lt_div_iff₀ (by norm_num) unit, one_mul, millionths,
    Nat.cast_lt]

/-- A length that does not count as nothing is greater than zero. What is written of it is so only
if it is greater than half a millionth. -/
theorem pos_value?_iff {length : Value} {exact : ℚ} {text : String}
    (isLength : Compilation.isLength length = true) (some_length : length.le (.int 0) = .ok false)
    (finite : length.toRat? = some exact) (written : parameterText length = .ok text) :
    0 < exact ∧ ∃ printed : ℚ, DecimalText.value? text.toList = some printed ∧
      (0 < printed ↔ 1 / 2000000 < exact) := by
  cases length with
  | int n =>
    have positive : 0 < n := by simpa using some_length
    obtain rfl : (n : ℚ) = exact := Option.some.inj finite
    obtain rfl : decimalText n = text := by
      rw [parameterText, Text.wholeText] at written
      split at written
      · exact Except.ok.inj written
      · cases written
    have one_le : (1 : ℚ) ≤ n := Int.cast_one.symm.trans_le (Int.cast_le.mpr positive)
    have pos : (0 : ℚ) < n := lt_of_lt_of_le one_pos one_le
    refine ⟨pos, n, value?_decimalText n, iff_of_true pos ?_⟩
    exact lt_of_lt_of_le (by norm_num) one_le
  | real x =>
    cases x with
    | finite negative units fits =>
      obtain ⟨rfl, positive⟩ := Number.pos_of_le_eq_false (Except.ok.inj some_length)
      obtain rfl : (units / Binary64.one : ℚ) = exact := Option.some.inj finite
      obtain rfl := Except.ok.inj written
      refine ⟨div_pos (Nat.cast_pos.mpr positive) Binary64.one_pos_rat,
        Binary64.placeCount 6 units / 10 ^ 6, ?_, Binary64.placeCount_pos_iff⟩
      rw [String.toList_ofList, value?_realParameter]
      rfl
    | nan => cases finite
    | infinity _ => cases finite
  | null | bool _ | text _ | list _ | object _ => cases isLength

/-! ## Fades -/

/-- The key of the length in the operations that fade. -/
def lengthKey? (name : String) : Option String :=
  if name = "fade" ∨ name = "afade" ∨ name = "acrossfade" then some "d"
  else if name = "xfade" then some "duration"
  else none

theorem lengthKey?_of_mem_letterboxOps {width height : Value} {op : Op}
    (present : op ∈ Effect.letterboxOps width height) : lengthKey? op.name = none := by
  simp only [Effect.letterboxOps, List.mem_cons, List.not_mem_nil, or_false] at present
  rcases present with rfl | rfl | rfl <;> rfl

theorem FadeLengths.Gives.length {fade : FadeLengths} {op : Op} (gives : fade.Gives op) :
    lengthKey? op.name = some "d" ∧ ∃ length ∈ fade.lengths, length.le (.int 0) = .ok false ∧
      (some "d", length) ∈ op.params ∧ op.param (some "d") .null = length := by
  cases gives with
  | @intro kind direction start length edge compared _ =>
    have known : length ∈ fade.lengths := by
      rcases List.mem_cons.mp edge with first | last
      · cases first
        exact .head _
      · cases List.mem_singleton.mp last
        exact .tail _ (.head _)
    refine ⟨?_, length, known, compared, .tail _ (.tail _ (.head _)), rfl⟩
    unfold fadeOp
    split <;> rfl

/-- The parameter of an operation that fades is a length of the project that counts. -/
theorem OpOrigin.length_of_fades {project : Project} {transition : Transition} {op : Op}
    {key : String} (origin : OpOrigin project transition op)
    (fades : lengthKey? op.name = some key) :
    ∃ length ∈ project.fade.lengths, length.le (.int 0) = .ok false ∧
      (some key, length) ∈ op.params ∧ op.param (some key) .null = length := by
  have other : lengthKey? op.name ≠ none := by rw [fades]; nofun
  cases origin with
  | @reset name known =>
    have unknown : ∀ name ∈ ["setpts", "asetpts"], lengthKey? name = none := by decide
    exact absurd (unknown name known) other
  | shift present =>
    rcases offsetChain_cases present with rfl | rfl | rfl | rfl <;> exact absurd rfl other
  | frame _ present => exact absurd (lengthKey?_of_mem_letterboxOps present) other
  | volume _ _ present =>
    rw [List.mem_singleton.mp present] at other
    exact absurd rfl other
  | fade gives =>
    obtain ⟨isD, given⟩ := gives.length
    obtain rfl := Option.some.inj (isD.symm.trans fades)
    exact given
  | mix present =>
    rw [List.mem_singleton.mp present] at other
    exact absurd rfl other
  | picture _ given =>
    rcases Transition.videoOp_cases given with rfl | ⟨compared, rfl⟩
    · exact absurd rfl other
    · obtain rfl : "duration" = key := Option.some.inj fades
      exact ⟨_, .tail _ (.tail _ (.head _)), compared, .tail _ (.head _), rfl⟩
  | sound given =>
    rcases Transition.audioOp_cases given with rfl | ⟨compared, rfl⟩
    · exact absurd rfl other
    · obtain rfl : "d" = key := Option.some.inj fades
      exact ⟨_, .tail _ (.tail _ (.head _)), compared, .head _, rfl⟩

/-! ## The whole graph -/

/-- A parameter of an operation is among what is written of it. -/
theorem Op.text_of_param {op : Op} {text key : String} {value : Value}
    (present : (some key, value) ∈ op.params) (written : op.text = .ok text) :
    ∃ texts shown, text = op.name ++ "=" ++ ":".intercalate texts ∧
      parameterText value = .ok shown ∧ key ++ "=" ++ shown ∈ texts := by
  unfold Op.text at written
  rw [if_neg (by simpa using List.ne_nil_of_mem present)] at written
  obtain ⟨texts, given, written⟩ := except_bind_eq_ok_iff.mp written
  obtain ⟨position, found⟩ := List.getElem?_of_mem present
  obtain ⟨entry, entryAt, isEntry⟩ := except_getElem?_of_mapM given found
  obtain ⟨shown, isShown, isEntry⟩ := except_bind_eq_ok_iff.mp isEntry
  refine ⟨texts, shown, (except_pure_eq_ok_iff.mp written).symm, isShown, ?_⟩
  rw [except_pure_eq_ok_iff.mp isEntry]
  exact List.mem_of_getElem? entryAt

/-- Every operation of a graph that can be written can be written. -/
theorem Graph.exists_text_of_filters {graph : Graph} {expressions : List String}
    (filters : graph.filters = .ok expressions) {node : Node} {op : Op}
    (present : node ∈ graph.nodes) (inNode : op ∈ node.ops) : ∃ text, op.text = .ok text := by
  obtain ⟨position, found⟩ := List.getElem?_of_mem present
  obtain ⟨_, _, expression⟩ := except_getElem?_of_mapM filters found
  obtain ⟨_, _, expression⟩ := except_bind_eq_ok_iff.mp expression
  obtain ⟨texts, written, _⟩ := except_bind_eq_ok_iff.mp expression
  obtain ⟨place, foundOp⟩ := List.getElem?_of_mem inNode
  obtain ⟨text, _, isText⟩ := except_getElem?_of_mapM written foundOp
  exact ⟨text, isText⟩

/-- What is printed of an operation that fades for a length, which is written under a key. -/
structure Op.PrintsLength (op : Op) (key : String) (length : Value) (texts : List String)
    (shown : String) (exact printed : ℚ) : Prop where
  param : op.param (some key) .null = length
  value : length.toRat? = some exact
  positive : 0 < exact
  text : op.text = .ok (op.name ++ "=" ++ ":".intercalate texts)
  listed : key ++ "=" ++ shown ∈ texts
  denotes : DecimalText.value? shown.toList = some printed
  /-- A length of at most half a millionth of a second is printed as zero. -/
  kept : 0 < printed ↔ 1 / 2000000 < exact

namespace Compilation

theorem isLength_of_checkFade {fade : FadeLengths} (passed : checkFade fade = .ok ()) :
    ∀ length ∈ fade.lengths, isLength length = true := by
  obtain ⟨fadeIn, fadeOut, crossfade⟩ := checkFade_eq_ok_iff.mp passed
  exact List.forall_mem_cons.mpr ⟨(checkLength_eq_ok_iff.mp fadeIn).1,
    List.forall_mem_cons.mpr ⟨(checkLength_eq_ok_iff.mp fadeOut).1,
      List.forall_mem_singleton.mpr (checkLength_eq_ok_iff.mp crossfade).1⟩⟩

variable {existence : ExistenceCheck} {transition : Transition} {project : Project}
  {graph : Graph} {draft after : Draft}

/-- Every operation of a graph that fades has a length of the project which is greater than zero.
It is printed as a number greater than zero exactly if it is greater than half a millionth. -/
theorem printed_of_run_build
    (built : (build existence transition project).run draft = .ok graph after)
    (finite : ∀ length ∈ project.fade.lengths, length.toRat? ≠ none) {node : Node} {op : Op}
    {key : String} (present : node ∈ graph.nodes) (inNode : op ∈ node.ops)
    (fades : lengthKey? op.name = some key) :
    ∃ length ∈ project.fade.lengths, ∃ texts shown exact printed,
      op.PrintsLength key length texts shown exact printed := by
  obtain ⟨expressions, filters⟩ := filters_of_run_build built
  obtain ⟨_, assembled⟩ := built_of_run built
  obtain ⟨length, known, compared, listed, param⟩ :=
    (assembled.opOrigin present inNode).length_of_fades fades
  obtain ⟨exact, value⟩ := Option.ne_none_iff_exists'.mp (finite length known)
  obtain ⟨_, text⟩ := Graph.exists_text_of_filters filters present inNode
  obtain ⟨texts, shown, rfl, written, inTexts⟩ := Op.text_of_param listed text
  obtain ⟨positive, printed, denotes, kept⟩ := pos_value?_iff
    (isLength_of_checkFade assembled.fade length known) compared value written
  exact ⟨length, known, texts, shown, exact, printed,
    ⟨param, value, positive, text, inTexts, denotes, kept⟩⟩

/-- The sample project crosses over for one second, which is printed as it is. -/
theorem printed_sampleProject : ∃ graph after, ∃ node ∈ graph.nodes, ∃ op ∈ node.ops,
    (build (fun _ _ => .ok true) .plain sampleProject).run {} = .ok graph after ∧
      ∃ length ∈ sampleProject.fade.lengths, ∃ texts shown exact printed,
        op.PrintsLength "duration" length texts shown exact printed := by
  have succeeds : Drafting.succeeds (build (fun _ _ => .ok true) .plain sampleProject) {}
      (fun graph => ∃ node ∈ graph.nodes, ∃ op ∈ node.ops, op.name = "xfade") = true := by
    decide +kernel
  obtain ⟨graph, after, built, found⟩ := exists_of_succeeds succeeds
  obtain ⟨node, present, op, inNode, name⟩ := of_decide_eq_true found
  have finite : ∀ length ∈ sampleProject.fade.lengths, length.toRat? ≠ none :=
    List.forall_mem_cons.mpr ⟨nofun,
      List.forall_mem_cons.mpr ⟨nofun, List.forall_mem_singleton.mpr nofun⟩⟩
  refine ⟨graph, after, node, present, op, inNode, built, ?_⟩
  exact printed_of_run_build built finite present inNode (by rw [name]; rfl)

/-- The sample project with a fade of a tenth of a millionth of a second. -/
def shortFadeProject : Project :=
  { sampleProject with fade := ⟨.real (Binary64.ofRatio false 1 10000000), .int 2, .int 1⟩ }

/-- Its fade is written, with a length that is printed as zero. -/
theorem printed_zero_shortFadeProject : ∃ graph after,
    (build (fun _ _ => .ok true) .plain shortFadeProject).run {} = .ok graph after ∧
      ∃ node ∈ graph.nodes, ∃ op ∈ node.ops, op.name = "fade" ∧
        op.text = .ok "fade=t=in:st=0:d=0" ∧ DecimalText.value? "0".toList = some 0 := by
  have succeeds : Drafting.succeeds (build (fun _ _ => .ok true) .plain shortFadeProject) {}
      (fun graph => ∃ node ∈ graph.nodes, ∃ op ∈ node.ops, op.name = "fade" ∧
        op.text = .ok "fade=t=in:st=0:d=0") = true := by
    decide +kernel
  obtain ⟨graph, after, built, found⟩ := exists_of_succeeds succeeds
  obtain ⟨node, present, op, inNode, name, text⟩ := of_decide_eq_true found
  exact ⟨graph, after, built, node, present, op, inNode, name, text, by decide +kernel⟩

end Compilation

end Montage
