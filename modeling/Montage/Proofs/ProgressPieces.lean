import Mathlib.Data.List.Induction
import Montage.Encoder.Progress
import Montage.Proofs.Drafting

/-!
# Progress by whole pieces

What the progress output of the encoder says, told of all its lines at once. The fields of its
lines are cut after every field that ends a block, what is left over at the end is dropped, and a
piece says what the last values of its keys in it say (`ProgressPiece.report?`). Main statements:
`pieces_append_of_end`, that lines before an end and after it are cut apart from each other, and
`report?_of_ofBlock`, that a block says the same as the piece it was gathered from.
-/

namespace Montage

/-! ## Cutting -/

section Cutting

variable {α : Type} {ends : α → Bool}

/-- Items that are cut after every one that ends a piece: the finished pieces, and what is left
over. -/
def cutAfter (ends : α → Bool) : List α → List (List α) × List α
  | [] => ([], [])
  | item :: items =>
    match ends item, cutAfter ends items with
    | true, (pieces, rest) => ([item] :: pieces, rest)
    | false, ([], rest) => ([], item :: rest)
    | false, (piece :: pieces, rest) => ((item :: piece) :: pieces, rest)

/-- Items of which none ends a piece are all left over. -/
theorem cutAfter_of_plain {items : List α} (plain : ∀ item ∈ items, ends item = false) :
    cutAfter ends items = ([], items) := by
  induction items with
  | nil => rfl
  | cons item items ih =>
    obtain ⟨here, later⟩ := List.forall_mem_cons.mp plain
    rw [cutAfter, here, ih later]

/-- The first item that ends a piece ends the first piece. -/
theorem cutAfter_of_end {items : List α} {last : α} (plain : ∀ item ∈ items, ends item = false)
    (isEnd : ends last = true) (more : List α) :
    cutAfter ends (items ++ last :: more) =
      ((items ++ [last]) :: (cutAfter ends more).1, (cutAfter ends more).2) := by
  induction items with
  | nil => rw [List.nil_append, cutAfter, isEnd]; rfl
  | cons item items ih =>
    obtain ⟨here, later⟩ := List.forall_mem_cons.mp plain
    rw [List.cons_append, cutAfter, here, ih later]
    rfl

/-- What is left over of some items goes on with those that follow. -/
theorem cutAfter_append (items more : List α) :
    cutAfter ends (items ++ more) =
      ((cutAfter ends items).1 ++ (cutAfter ends ((cutAfter ends items).2 ++ more)).1,
        (cutAfter ends ((cutAfter ends items).2 ++ more)).2) := by
  induction items with
  | nil => rfl
  | cons item items ih =>
    rw [List.cons_append, cutAfter, cutAfter, ih]
    generalize cutAfter ends items = cut
    obtain ⟨pieces, rest⟩ := cut
    cases isEnd : ends item with
    | true => rfl
    | false =>
      cases pieces with
      | nil => simp [cutAfter, isEnd]
      | cons piece pieces => rfl

/-- No item that is left over ends a piece. -/
theorem plain_of_mem_rest (items : List α) :
    ∀ item ∈ (cutAfter ends items).2, ends item = false := by
  induction items with
  | nil => exact List.forall_mem_nil _
  | cons item items ih =>
    rw [cutAfter]
    generalize cutAfter ends items = cut at ih
    obtain ⟨pieces, rest⟩ := cut
    cases isEnd : ends item with
    | true => exact ih
    | false =>
      cases pieces with
      | nil => exact List.forall_mem_cons.mpr ⟨isEnd, ih⟩
      | cons piece pieces => exact ih

/-- One item more ends the piece that it is left over with, or is left over as well. -/
theorem cutAfter_concat (items : List α) (item : α) :
    cutAfter ends (items ++ [item]) =
      if ends item then
        ((cutAfter ends items).1 ++ [(cutAfter ends items).2 ++ [item]], [])
      else ((cutAfter ends items).1, (cutAfter ends items).2 ++ [item]) := by
  have plain : ∀ other ∈ (cutAfter ends items).2, ends other = false := plain_of_mem_rest items
  rw [cutAfter_append]
  cases isEnd : ends item with
  | true => rw [cutAfter_of_end plain isEnd]; rfl
  | false =>
    have allPlain : ∀ other ∈ (cutAfter ends items).2 ++ [item], ends other = false := by
      intro other present
      rcases List.mem_append.mp present with earlier | last
      · exact plain other earlier
      · rw [List.mem_singleton.mp last, isEnd]
    rw [cutAfter_of_plain allPlain, List.append_nil]
    rfl

/-- What follows an item that ends a piece is cut as if nothing came before it. -/
theorem cutAfter_append_of_end {last : α} (isEnd : ends last = true) (items more : List α) :
    (cutAfter ends (items ++ [last] ++ more)).1 =
      (cutAfter ends (items ++ [last])).1 ++ (cutAfter ends more).1 := by
  rw [cutAfter_append, cutAfter_concat, isEnd]
  rfl

end Cutting

example : cutAfter (· == 0) [1, 0, 2, 3, 0, 4] = ([[1, 0], [2, 3, 0]], [4]) := by decide

/-! ## What a piece says -/

/-- The fields of one block in the order in which they were written. -/
abbrev ProgressPiece := List (String × String)

/-- The report among the news of a block, if there is one. -/
def ProgressNews.report? : ProgressNews → Option ProgressReport
  | .report given => some given
  | _ => none

namespace ProgressPiece

/-- Whether a field ends a block. -/
def isEnd (field : String × String) : Bool :=
  field.1 == ProgressBlock.endKey

/-- The lines that count: without the blanks around them, and not blank. -/
def written (lines : List String) : List String :=
  (lines.map Text.strip).filter (· ≠ "")

/-- The fields that lines give; a line without an equals sign gives none. -/
def fields (lines : List String) : List (String × String) :=
  (written lines).filterMap ProgressBlock.field?

/-- The finished pieces of some lines, and the piece that they leave unfinished. -/
def pieces (lines : List String) : List ProgressPiece × ProgressPiece :=
  cutAfter isEnd (fields lines)

/-- The last of the values that a key has in a piece. -/
def last? (piece : ProgressPiece) (key : String) : Option String :=
  ((piece.filter (·.1 == key)).getLast?).map (·.2)

/-- The time that a mark stands for, and the percent that it is of the total. -/
def timeOf (total : Value) (mark : String) : Except Failure (Binary64 × Option Binary64) := do
  let outTime ← Timecode.parseMark (.text mark)
  return (outTime, ← ProgressNews.percentOf outTime total)

/-- The report of a piece that has come to a time: every other field is that of the last value of
its key in the piece, as far as it can be read. -/
def reportAt (total : Value) (piece : ProgressPiece) (outTime : Binary64)
    (percent : Option Binary64) : ProgressReport where
  outTime := outTime
  speed := Text.real? (ProgressNews.withoutTimesSign ((piece.last? "speed").getD ""))
  percent := percent
  frame := (piece.last? "frame").bind fun text => Text.integer? text.toList
  fps := (piece.last? "fps").bind fun text => Text.real? text.toList
  bitrate := piece.last? "bitrate"
  total := total

/-- What a piece reports: nothing unless its last mark is there and stands for a time. -/
def report? (total : Value) (piece : ProgressPiece) : Option ProgressReport :=
  match piece.last? "out_time" with
  | none => none
  | some mark =>
    if mark = "" then none
    else
      match timeOf total mark with
      | .ok (outTime, percent) => some (reportAt total piece outTime percent)
      | .error _ => none

/-- The mark of a piece, if it has one, is refused as no time, or gives a time and a percent. -/
def Readable (total : Value) (piece : ProgressPiece) : Prop :=
  ∀ mark, piece.last? "out_time" = some mark → mark ≠ "" →
    (∃ fault, Timecode.parseMark (.text mark) = .error (.edit (.time fault))) ∨
      ∃ reading, timeOf total mark = .ok reading

/-- What lines report, piece by piece. -/
def reports (total : Value) (lines : List String) : List ProgressReport :=
  (pieces lines).1.filterMap (report? total)

/-! ## Lines that follow others -/

theorem written_append (lines more : List String) :
    written (lines ++ more) = written lines ++ written more := by
  rw [written, List.map_append, List.filter_append]
  rfl

theorem written_of_blank {line : String} (blank : Text.strip line = "") : written [line] = [] := by
  simp [written, blank]

theorem written_of_present {line : String} (present : Text.strip line ≠ "") :
    written [line] = [Text.strip line] := by
  simp [written, present]

theorem fields_append (lines more : List String) :
    fields (lines ++ more) = fields lines ++ fields more := by
  rw [fields, written_append, List.filterMap_append]
  rfl

theorem fields_singleton (line : String) :
    fields [line] = (ProgressBlock.field? (Text.strip line)).toList := by
  by_cases blank : Text.strip line = ""
  · rw [fields, written_of_blank blank, blank]
    rfl
  · rw [fields, written_of_present blank]
    cases found : ProgressBlock.field? (Text.strip line) <;> simp [found]

theorem pieces_of_no_field (lines : List String) {line : String}
    (plain : ProgressBlock.field? (Text.strip line) = none) :
    pieces (lines ++ [line]) = pieces lines := by
  rw [pieces, fields_append, fields_singleton, plain, Option.toList_none, List.append_nil]
  rfl

theorem pieces_of_field (lines : List String) {line : String} {field : String × String}
    (found : ProgressBlock.field? (Text.strip line) = some field) :
    pieces (lines ++ [line]) =
      if isEnd field then ((pieces lines).1 ++ [(pieces lines).2 ++ [field]], [])
      else ((pieces lines).1, (pieces lines).2 ++ [field]) := by
  rw [pieces, fields_append, fields_singleton, found, Option.toList_some, cutAfter_concat]
  rfl

/-- Pieces that are finished stay when other lines follow. -/
theorem pieces_subset_append (lines more : List String) :
    (pieces lines).1 ⊆ (pieces (lines ++ more)).1 := by
  rw [pieces, pieces, fields_append, cutAfter_append]
  exact List.subset_append_left _ _

/-- What follows the end of a block is cut as if no lines came before it. -/
theorem pieces_append_of_end {lines : List String} {last : String} {value : String}
    (isLast : lines.getLast? = some last)
    (ended : ProgressBlock.field? (Text.strip last) = some (ProgressBlock.endKey, value))
    (more : List String) :
    (pieces (lines ++ more)).1 = (pieces lines).1 ++ (pieces more).1 := by
  obtain ⟨earlier, rfl⟩ := List.getLast?_eq_some_iff.mp isLast
  have isEnd : isEnd (ProgressBlock.endKey, value) = true := beq_self_eq_true _
  unfold pieces
  rw [fields_append, fields_append, fields_singleton, ended, Option.toList_some,
    cutAfter_append_of_end isEnd]

/-! ## Pieces and blocks -/

theorem value?_reverse (piece : ProgressPiece) (key : String) :
    ProgressBlock.value? piece.reverse key = piece.last? key := by
  unfold ProgressBlock.value? last?
  induction piece using List.reverseRecOn with
  | nil => rfl
  | append_singleton piece field ih =>
    obtain ⟨name, value⟩ := field
    rw [List.reverse_append, List.filter_append, List.reverse_singleton, List.singleton_append,
      List.lookup_cons]
    by_cases same : name = key
    · simp [same]
    · have differ : (key == name) = false := by simpa using Ne.symm same
      simp [same, differ, ih]

theorem reportAt_reverse {total : Value} {piece : ProgressPiece} {outTime : Binary64}
    {percent : Option Binary64} (measured : ProgressNews.percentOf outTime total = .ok percent) :
    ProgressNews.reportAt piece.reverse outTime total =
      .ok (piece.reportAt total outTime percent) := by
  unfold ProgressNews.reportAt
  rw [measured]
  simp only [value?_reverse]
  rfl

/-- A block says what the piece says that it was gathered from. -/
theorem report?_of_ofBlock {total : Value} {piece : ProgressPiece}
    (readable : piece.Readable total) :
    ∃ news, ProgressNews.ofBlock piece.reverse total = .ok news ∧
      news.report? = report? total piece := by
  unfold ProgressNews.ofBlock report?
  rw [value?_reverse]
  cases found : piece.last? "out_time" with
  | none => exact ⟨.silent, rfl, rfl⟩
  | some mark =>
    dsimp only
    by_cases blank : mark = ""
    · rw [if_pos blank, if_pos blank]
      exact ⟨.silent, rfl, rfl⟩
    · rw [if_neg blank, if_neg blank]
      rcases readable mark found blank with ⟨fault, refused⟩ | ⟨⟨outTime, percent⟩, given⟩
      · have none : timeOf total mark = .error (.edit (.time fault)) := by
          rw [timeOf, refused]
          rfl
        rw [refused, none]
        exact ⟨.unreadable mark, rfl, rfl⟩
      · rw [given]
        obtain ⟨time, parsed, rest⟩ := except_bind_eq_ok_iff.mp given
        obtain ⟨share, measured, same⟩ := except_bind_eq_ok_iff.mp rest
        obtain ⟨rfl, rfl⟩ := Prod.mk.inj (except_pure_eq_ok_iff.mp same)
        rw [parsed]
        dsimp only
        rw [reportAt_reverse measured]
        exact ⟨.report _, rfl, rfl⟩

end ProgressPiece

end Montage
