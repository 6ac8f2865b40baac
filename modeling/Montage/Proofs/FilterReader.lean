import Mathlib.Data.List.Forall2
import Mathlib.Data.List.TakeDrop
import Montage.Filtergraph.Graph
import Montage.Proofs.Drafting
import Montage.Proofs.Labels

/-!
# Reading the filter language

The filter language has no quotes: nodes, operations and parameters are told apart by the marks
between them alone. `FilterReader` takes a text apart at these marks. It gives back what was
written wherever the names, keys and parameters that were written are free of marks (`Op.Plain`);
labels are free of them always. Main statement: `Graph.read_of_text`.
-/

namespace Montage

/-- An operation as it is read: its name and its parameters in order, each with its key if it has
one. -/
structure OpReading where
  name : String
  params : List (Option String × String)
deriving DecidableEq

/-- A node as it is read: the labels in front, the operations, the label at the end. -/
structure NodeReading where
  sources : List String
  ops : List OpReading
  label : String
deriving DecidableEq

/-! ## The reader -/

namespace FilterReader

/-- What stands before the first occurrence of a mark, and what behind it. -/
def splitFirst (mark : Char) : List Char → Option (List Char × List Char)
  | [] => none
  | c :: rest =>
    if c = mark then some ([], rest)
    else (splitFirst mark rest).map fun (front, back) => (c :: front, back)

def param (text : List Char) : Option String × String :=
  match splitFirst '=' text with
  | some (key, value) => (some (String.ofList key), String.ofList value)
  | none => (none, String.ofList text)

def op (text : List Char) : OpReading :=
  match splitFirst '=' text with
  | some (name, arguments) => ⟨String.ofList name, (arguments.splitOn ':').map param⟩
  | none => ⟨String.ofList text, []⟩

/-- Whether a text, which has been cut off at a closing bracket, starts with the opening one. -/
def isGroup (text : List Char) : Bool :=
  text.head? == some '['

/-- A node: groups in brackets, a chain of operations, and one group at the end. The closing
brackets cut it into pieces, of which those in front that start with an opening one are groups. -/
def node (text : List Char) : Option NodeReading :=
  match (text.splitOn ']').span isGroup with
  | (groups, [last, []]) => (splitFirst '[' last).map fun (chain, label) => {
      sources := groups.map fun group => String.ofList group.tail
      ops := (chain.splitOn ',').map op
      label := String.ofList label }
  | _ => none

/-- A graph is read piece by piece; none where a piece is no node. -/
def graph (text : String) : List (Option NodeReading) :=
  (text.toList.splitOn ';').map node

section Splitting

variable {mark : Char} {front back text : List Char}

theorem splitFirst_append_cons (absent : mark ∉ front) :
    splitFirst mark (front ++ mark :: back) = some (front, back) := by
  induction front with
  | nil => exact if_pos rfl
  | cons c front ih =>
    rw [List.cons_append, splitFirst, if_neg (List.ne_of_not_mem_cons absent).symm,
      ih (List.not_mem_of_not_mem_cons absent)]
    rfl

theorem splitFirst_eq_none (absent : mark ∉ text) : splitFirst mark text = none := by
  induction text with
  | nil => rfl
  | cons c text ih =>
    rw [splitFirst, if_neg (List.ne_of_not_mem_cons absent).symm,
      ih (List.not_mem_of_not_mem_cons absent)]
    rfl

/-- What starts with some text without brackets is no group. -/
theorem isGroup_append (present : front ≠ []) (free : '[' ∉ front) :
    isGroup (front ++ back) = false := by
  cases front with
  | nil => exact absurd rfl present
  | cons c front =>
    have differs : c ≠ '[' := (List.ne_of_not_mem_cons free).symm
    simp [isGroup, differs]

/-- The pieces of a node are groups, then the chain with the opening bracket of the last group,
then nothing. -/
theorem node_of_pieces {labels : List String} {chain label : List Char}
    (pieces : text.splitOn ']' = labels.map (fun group => '[' :: group.toList) ++
      [chain ++ '[' :: label, []]) (present : chain ≠ []) (free : '[' ∉ chain) :
    node text = some ⟨labels, (chain.splitOn ',').map op, String.ofList label⟩ := by
  have groups : ∀ piece ∈ labels.map (fun group => '[' :: group.toList), isGroup piece = true :=
    List.forall_mem_map.mpr fun _ _ => rfl
  have last : isGroup (chain ++ '[' :: label) = false := isGroup_append present free
  rw [node, pieces, List.span_eq_takeWhile_dropWhile, List.dropWhile_append_of_pos groups,
    List.takeWhile_append_of_pos groups, List.dropWhile_cons_of_neg (by simp [last]),
    List.takeWhile_cons_of_neg (by simp [last])]
  show (splitFirst '[' (chain ++ '[' :: label)).map _ = _
  rw [splitFirst_append_cons free, List.append_nil, Option.map_some, List.map_map]
  simp [Function.comp_def]

end Splitting

end FilterReader

/-! ## What is written -/

/-- A text with none of some marks in it. -/
def FreeOf (marks : List Char) (text : String) : Prop :=
  ∀ mark ∈ marks, mark ∉ text.toList

instance (marks : List Char) (text : String) : Decidable (FreeOf marks text) :=
  List.decidableBAll (fun mark => mark ∉ text.toList) marks

/-- The marks of the filter language. -/
def filterMarks : List Char := [';', ',', ':', '=', '[', ']']

/-- A value that is written without marks, if it is written at all. -/
def Value.Plain (value : Value) : Prop :=
  ∀ text, parameterText value = .ok text → FreeOf filterMarks text

/-- An operation that is written with no marks but its own. -/
structure Op.Plain (op : Op) : Prop where
  named : op.name ≠ ""
  name : FreeOf filterMarks op.name
  keys : ∀ param ∈ op.params, ∀ key ∈ param.1, FreeOf filterMarks key
  values : ∀ param ∈ op.params, param.2.Plain

/-- A graph in which every node has operations, all of them plain. -/
structure Graph.Plain (graph : Graph) : Prop where
  chains : ∀ node ∈ graph.nodes, node.ops ≠ []
  ops : ∀ node ∈ graph.nodes, ∀ op ∈ node.ops, op.Plain

/-- What there is to be read of an operation. -/
def Op.reading (op : Op) : Except Defect OpReading := do
  return ⟨op.name, ← op.params.mapM fun (key, value) => do return (key, ← parameterText value)⟩

/-- What there is to be read of a node. -/
def Graph.reading (graph : Graph) (node : Node) : Except Defect NodeReading := do
  let sources ← node.sources.mapM graph.labelOf
  let ops ← node.ops.mapM Op.reading
  return ⟨sources, ops, node.label⟩

section FreeOf

variable {marks others : List Char} {text other separator : String} {texts : List String}

theorem FreeOf.of_subset (free : FreeOf others text) (subset : marks ⊆ others) :
    FreeOf marks text :=
  fun mark isMark => free mark (subset isMark)

theorem FreeOf.append (free : FreeOf marks text) (otherFree : FreeOf marks other) :
    FreeOf marks (text ++ other) := by
  intro mark isMark present
  rw [String.toList_append, List.mem_append] at present
  exact present.elim (free mark isMark) (otherFree mark isMark)

theorem notMem_intercalate {mark : Char} {separator : List Char} {texts : List (List Char)}
    (free : mark ∉ separator) (allFree : ∀ text ∈ texts, mark ∉ text) :
    mark ∉ separator.intercalate texts := by
  induction texts with
  | nil => exact List.not_mem_nil
  | cons first rest ih =>
    obtain ⟨firstFree, restFree⟩ := List.forall_mem_cons.mp allFree
    cases rest with
    | nil => rwa [List.intercalate_singleton]
    | cons second rest =>
      rw [List.intercalate_cons_cons, List.mem_append, List.mem_append]
      rintro ((inFirst | inSeparator) | inRest)
      · exact firstFree inFirst
      · exact free inSeparator
      · exact ih restFree inRest

theorem FreeOf.intercalate (free : FreeOf marks separator)
    (allFree : ∀ text ∈ texts, FreeOf marks text) :
    FreeOf marks (separator.intercalate texts) := by
  intro mark isMark
  rw [String.toList_intercalate]
  refine notMem_intercalate (free mark isMark) (List.forall_mem_map.mpr ?_)
  exact fun text present => allFree text present mark isMark

theorem FreeOf.join (allFree : ∀ text ∈ texts, FreeOf marks text) :
    FreeOf marks (String.join texts) := by
  intro mark isMark present
  rw [String.toList_join] at present
  obtain ⟨text, inTexts, inText⟩ := List.mem_flatMap.mp present
  exact allFree text inTexts mark isMark inText

theorem freeOf_decimalText (n : Int) : FreeOf filterMarks (decimalText n) := by
  have marks : ∀ mark ∈ filterMarks, mark ≠ '-' ∧ mark.isDigit = false := by
    simp [filterMarks]
  intro mark isMark
  exact notMem_decimalText (marks mark isMark).1 (marks mark isMark).2 n

end FreeOf

/-- The label of a node is free of all marks. -/
theorem Node.freeOf_label (node : Node) : FreeOf filterMarks node.label := by
  unfold label NodeRole.label
  have index := freeOf_decimalText node.index
  cases node.role with
  | segmentAudio =>
    exact ((FreeOf.append (by decide) index).append (by decide)).append (freeOf_decimalText _)
  | segmentVideo | mix | videoJoin | audioJoin => exact FreeOf.append (by decide) index

/-- The label of an input has a colon in it, but stands between brackets only. -/
theorem freeOf_labelOf {graph : Graph} {source : Source} {label : String}
    (given : graph.labelOf source = .ok label) : FreeOf [';', ']'] label := by
  cases source with
  | input index kind =>
    cases given
    refine ((freeOf_decimalText index).of_subset (by decide)).append ?_
    split <;> decide
  | node position =>
    obtain ⟨node, _, given⟩ := except_bind_eq_ok_iff.mp given
    obtain rfl := except_pure_eq_ok_iff.mp given
    exact node.freeOf_label.of_subset (by decide)

/-! ## What is written is read -/

/-- Where each item is read as it was written, all items are. -/
theorem exists_readings {ε α γ : Type} {write : α → Except ε String} {reading : α → Except ε γ}
    {read : String → γ → Prop} {marks : List Char} {items : List α} {texts : List String}
    (each : ∀ item ∈ items, ∀ text, write item = .ok text →
      ∃ found, reading item = .ok found ∧ read text found ∧ FreeOf marks text)
    (written : items.mapM write = .ok texts) :
    ∃ readings, items.mapM reading = .ok readings ∧ List.Forall₂ read texts readings ∧
      ∀ text ∈ texts, FreeOf marks text := by
  have texts := except_mapM_eq_ok_iff.mp written
  clear written
  induction texts with
  | nil => exact ⟨[], rfl, .nil, List.forall_mem_nil _⟩
  | @cons item text items texts first _ ih =>
    obtain ⟨found, given, isFound, free⟩ := each item List.mem_cons_self text first
    obtain ⟨others, othersGiven, areOthers, othersFree⟩ := ih fun later present =>
      each later (List.mem_cons_of_mem item present)
    refine ⟨found :: others, ?_, .cons isFound areOthers, List.forall_mem_cons.mpr
      ⟨free, othersFree⟩⟩
    rw [List.mapM_cons, given, othersGiven]
    rfl

theorem map_eq_of_readings {γ : Type} {read : List Char → γ} {texts : List String}
    {readings : List γ}
    (each : List.Forall₂ (fun text found => read text.toList = found) texts readings) :
    (texts.map String.toList).map read = readings := by
  rw [List.map_map, ← List.forall₂_eq_eq_eq, List.forall₂_map_left_iff]
  exact each

/-- Texts without a mark are told apart by it. -/
theorem splitOn_intercalate {mark : Char} {separator : String} {texts : List String}
    (isMark : separator.toList = [mark]) (free : ∀ text ∈ texts, mark ∉ text.toList)
    (present : texts ≠ []) :
    (separator.intercalate texts).toList.splitOn mark = texts.map String.toList := by
  rw [String.toList_intercalate, isMark]
  refine List.splitOn_intercalate mark (List.forall_mem_map.mpr free) ?_
  exact mt List.map_eq_nil_iff.mp present

namespace Op

variable {op : Op} {text : String}

theorem param_of_text {key : Option String} {value : Value}
    (keyFree : ∀ name ∈ key, FreeOf filterMarks name) (plain : value.Plain)
    (written : parameter (key, value) = .ok text) :
    ∃ found, (do return (key, ← parameterText value)) = Except.ok found ∧
      FilterReader.param text.toList = found ∧ FreeOf [';', ',', ':', '[', ']'] text := by
  cases key with
  | none =>
    have free := plain text written
    refine ⟨(none, text), ?_, ?_, free.of_subset (by decide)⟩
    · rw [show parameterText value = .ok text from written]
      rfl
    · rw [FilterReader.param, FilterReader.splitFirst_eq_none (free '=' (by decide)),
        String.ofList_toList]
  | some name =>
    obtain ⟨shown, given, written⟩ := except_bind_eq_ok_iff.mp written
    obtain rfl := except_pure_eq_ok_iff.mp written
    have nameFree := keyFree name rfl
    refine ⟨(some name, shown), by rw [given]; rfl, ?_, ?_⟩
    · rw [String.toList_append, String.toList_append, List.append_assoc]
      show FilterReader.param (name.toList ++ '=' :: shown.toList) = _
      rw [FilterReader.param, FilterReader.splitFirst_append_cons (nameFree '=' (by decide))]
      simp only [String.ofList_toList]
    · exact ((nameFree.of_subset (by decide)).append (by decide)).append
        ((plain shown given).of_subset (by decide))

/-- A plain operation is read as it was written. -/
theorem read_of_text (plain : op.Plain) (written : op.text = .ok text) :
    ∃ found, op.reading = .ok found ∧ FilterReader.op text.toList = found ∧
      FreeOf [';', ',', '[', ']'] text := by
  unfold Op.text at written
  unfold reading
  split at written
  · next empty =>
    obtain rfl := except_pure_eq_ok_iff.mp written
    refine ⟨⟨op.name, []⟩, ?_, ?_, plain.name.of_subset (by decide)⟩
    · rw [List.isEmpty_iff.mp empty]
      rfl
    · rw [FilterReader.op, FilterReader.splitFirst_eq_none (plain.name '=' (by decide)),
        String.ofList_toList]
  · next given =>
    obtain ⟨texts, textsWritten, written⟩ := except_bind_eq_ok_iff.mp written
    obtain rfl := except_pure_eq_ok_iff.mp written
    obtain ⟨params, paramsRead, areRead, free⟩ := exists_readings (fun entry present text shown =>
      param_of_text (plain.keys entry present) (plain.values entry present) shown) textsWritten
    have present : texts ≠ [] := by
      rintro rfl
      have count := (except_mapM_eq_ok_iff.mp textsWritten).length_eq
      exact given (List.isEmpty_iff_length_eq_zero.mpr count)
    refine ⟨⟨op.name, params⟩, ?_, ?_, ?_⟩
    · rw [paramsRead]
      rfl
    · rw [String.toList_append, String.toList_append, List.append_assoc]
      show FilterReader.op (op.name.toList ++ '=' :: (":".intercalate texts).toList) = _
      rw [FilterReader.op, FilterReader.splitFirst_append_cons (plain.name '=' (by decide))]
      simp only [String.ofList_toList]
      rw [splitOn_intercalate rfl (fun text inTexts => free text inTexts ':' (by decide)) present,
        map_eq_of_readings areRead]
    · exact ((plain.name.of_subset (by decide)).append (by decide)).append
        (.intercalate (by decide) fun text inTexts => (free text inTexts).of_subset (by decide))

/-- An operation with a name is not written as nothing. -/
theorem text_ne_empty (named : op.name ≠ "") (written : op.text = .ok text) : text ≠ "" := by
  unfold Op.text at written
  split at written
  · obtain rfl := except_pure_eq_ok_iff.mp written
    exact named
  · obtain ⟨texts, _, written⟩ := except_bind_eq_ok_iff.mp written
    obtain rfl := except_pure_eq_ok_iff.mp written
    simp [named]

/-- Nor is a chain of such operations. -/
theorem chain_ne_empty {ops : List Op} {texts : List String} (chained : ops ≠ [])
    (named : ∀ op ∈ ops, op.name ≠ "") (written : ops.mapM Op.text = .ok texts) :
    texts ≠ [] ∧ (",".intercalate texts).toList ≠ [] := by
  have each := except_mapM_eq_ok_iff.mp written
  clear written
  cases each with
  | nil => exact absurd rfl chained
  | @cons op first _ rest shown _ =>
    refine ⟨List.cons_ne_nil _ _, ?_⟩
    have present := text_ne_empty (named op List.mem_cons_self) shown
    rw [String.toList_intercalate]
    cases rest with
    | nil => simpa using present
    | cons second rest => simp [present]

end Op

namespace Graph

variable {graph : Graph} {node : Node} {text : String}

/-- The closing brackets part the labels from each other and from the rest. -/
theorem splitOn_bracketed (labels : List String) (rest : List Char)
    (free : ∀ label ∈ labels, FreeOf [';', ']'] label) :
    ((String.join (labels.map bracketed)).toList ++ rest).splitOn ']' =
      labels.map (fun label => '[' :: label.toList) ++ rest.splitOn ']' := by
  rw [String.toList_join]
  induction labels with
  | nil => rfl
  | cons label labels ih =>
    obtain ⟨own, others⟩ := List.forall_mem_cons.mp free
    have group : ']' ∉ '[' :: label.toList :=
      List.not_mem_cons_of_ne_of_not_mem (by decide) (own ']' (by decide))
    have front : (bracketed label).toList = '[' :: label.toList ++ [']'] := by
      simp [bracketed]
    rw [List.map_cons, List.flatMap_cons, front, List.append_assoc, List.append_assoc,
      List.singleton_append, List.splitOn_append_cons_self_of_not_mem group, ih others]
    rfl

/-- The parts of a node are told apart: the labels in front, the chain and the label at the end. -/
theorem node_of_parts {labels : List String} {chain label : String}
    (labelsFree : ∀ label ∈ labels, FreeOf [';', ']'] label) (present : chain.toList ≠ [])
    (chainFree : FreeOf ['[', ']'] chain) (labelFree : FreeOf filterMarks label) :
    FilterReader.node (String.join (labels.map bracketed) ++ chain ++ bracketed label).toList =
      some ⟨labels, (chain.toList.splitOn ',').map FilterReader.op, label⟩ := by
  have parts : (String.join (labels.map bracketed) ++ chain ++ bracketed label).toList =
      (String.join (labels.map bracketed)).toList ++
        (chain.toList ++ '[' :: label.toList ++ ']' :: []) := by
    simp [bracketed]
  have last : ']' ∉ chain.toList ++ '[' :: label.toList := by
    rw [List.mem_append, List.mem_cons]
    rintro (inChain | bracket | inLabel)
    · exact chainFree ']' (by decide) inChain
    · cases bracket
    · exact labelFree ']' (by decide) inLabel
  have pieces := splitOn_bracketed labels (chain.toList ++ '[' :: label.toList ++ [']']) labelsFree
  rw [← parts, List.splitOn_append_cons_self_of_not_mem last, List.splitOn_nil] at pieces
  rw [FilterReader.node_of_pieces pieces present (chainFree '[' (by decide)), String.ofList_toList]

theorem freeOf_parts {labels : List String} {chain label : String}
    (labelsFree : ∀ label ∈ labels, FreeOf [';', ']'] label) (chainFree : FreeOf [';'] chain)
    (labelFree : FreeOf filterMarks label) :
    FreeOf [';'] (String.join (labels.map bracketed) ++ chain ++ bracketed label) := by
  have closed {label : String} (free : FreeOf [';'] label) : FreeOf [';'] (bracketed label) :=
    .append (.append (by decide) free) (by decide)
  refine .append (.append (.join (List.forall_mem_map.mpr ?_)) chainFree)
    (closed (labelFree.of_subset (by decide)))
  exact fun label present => closed ((labelsFree label present).of_subset (by decide))

/-- A node is read as it was written. -/
theorem read_of_expression (chained : node.ops ≠ []) (plain : ∀ op ∈ node.ops, op.Plain)
    (written : graph.expression node = .ok text) :
    ∃ found, graph.reading node = .ok found ∧ FilterReader.node text.toList = some found ∧
      FreeOf [';'] text := by
  obtain ⟨labels, labelsGiven, written⟩ := except_bind_eq_ok_iff.mp written
  obtain ⟨texts, textsWritten, written⟩ := except_bind_eq_ok_iff.mp written
  obtain rfl := except_pure_eq_ok_iff.mp written
  obtain ⟨ops, opsRead, areRead, free⟩ := exists_readings
    (fun op present text shown => Op.read_of_text (plain op present) shown) textsWritten
  have labelsFree : ∀ label ∈ labels, FreeOf [';', ']'] label := by
    intro label present
    obtain ⟨source, _, given⟩ := except_exists_of_mem_mapM labelsGiven present
    exact freeOf_labelOf given
  have chainFree : FreeOf [';', '[', ']'] (",".intercalate texts) :=
    .intercalate (by decide) fun text present => (free text present).of_subset (by decide)
  refine ⟨⟨labels, ops, node.label⟩, ?_, ?_, ?_⟩
  · unfold reading
    rw [labelsGiven, opsRead]
    rfl
  · obtain ⟨given, present⟩ := Op.chain_ne_empty chained (fun op inOps => (plain op inOps).named)
      textsWritten
    rw [node_of_parts labelsFree present (chainFree.of_subset (by decide)) node.freeOf_label,
      splitOn_intercalate rfl (fun text inTexts => free text inTexts ',' (by decide)) given,
      map_eq_of_readings areRead]
  · exact freeOf_parts labelsFree (chainFree.of_subset (by decide)) node.freeOf_label

/-- A plain graph is read as it was written, piece by piece. -/
theorem read_of_text (plain : graph.Plain) (present : graph.nodes ≠ [])
    (written : graph.text = .ok text) :
    ∃ readings, graph.nodes.mapM graph.reading = .ok readings ∧
      FilterReader.graph text = readings.map some := by
  obtain ⟨texts, filters, written⟩ := except_bind_eq_ok_iff.mp written
  obtain rfl := except_pure_eq_ok_iff.mp written
  obtain ⟨readings, read, areRead, free⟩ := exists_readings (fun node inGraph text shown =>
    read_of_expression (plain.chains node inGraph) (plain.ops node inGraph) shown) filters
  have given : texts ≠ [] := by
    rintro rfl
    exact present (List.eq_nil_of_length_eq_zero (except_mapM_eq_ok_iff.mp filters).length_eq)
  refine ⟨readings, read, ?_⟩
  rw [FilterReader.graph,
    splitOn_intercalate rfl (fun text inTexts => free text inTexts ';' (by decide)) given]
  refine map_eq_of_readings ?_
  rw [List.forall₂_map_right_iff]
  exact areRead

example : FilterReader.graph "[0:v]setsar=1,fade=t=in:d=2[v0];[v0][1:v]hstack[out]" =
    [some ⟨["0:v"],
        [⟨"setsar", [(none, "1")]⟩, ⟨"fade", [(some "t", "in"), (some "d", "2")]⟩], "v0"⟩,
      some ⟨["v0", "1:v"], [⟨"hstack", []⟩], "out"⟩] := by
  decide +kernel

end Graph

end Montage
