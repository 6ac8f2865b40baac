import Montage.Encoder.Command
import Montage.Proofs.RealBounds
import Montage.Proofs.WellFormed

/-!
# The layout of the command

A command names the windows of a graph only by the order in which it reads them, while the filters
name them by their slots. Each window takes six tokens, so the two agree: the node of every sound
and every picture reads the file that its cut names. Main statements: `secondsArgument_of_small`
says that small numbers are written exactly, `getElem?_flatMap_of_size` finds a block among blocks
of one size, and `laid_of_run_build` tells the whole command, which there is unless the quality or
the frame rate has more digits than can be written.
-/

namespace Montage

/-! ## Blocks of one size -/

section Blocks

variable {α β : Type} {write : α → List β} {size : Nat}

theorem length_flatMap_of_size (sizes : ∀ item, (write item).length = size) (items : List α) :
    (items.flatMap write).length = size * items.length := by
  induction items with
  | nil => rfl
  | cons item items ih =>
    rw [List.flatMap_cons, List.length_append, sizes, ih, List.length_cons, Nat.mul_succ,
      Nat.add_comm]

/-- Where all items are written in blocks of one size, each block stands at its multiple. -/
theorem getElem?_flatMap_of_size (sizes : ∀ item, (write item).length = size) {items : List α}
    {item : α} {block place : Nat} (found : items[block]? = some item) (within : place < size) :
    (items.flatMap write)[size * block + place]? = (write item)[place]? := by
  induction items generalizing block with
  | nil => cases found
  | cons head items ih =>
    rw [List.flatMap_cons]
    cases block with
    | zero =>
      obtain rfl := Option.some.inj found
      rw [Nat.mul_zero, Nat.zero_add, List.getElem?_append_left (by rw [sizes]; exact within)]
    | succ block =>
      have beyond : size * (block + 1) + place = (write head).length + (size * block + place) := by
        rw [sizes, Nat.mul_succ]
        omega
      rw [beyond, List.getElem?_append_right (Nat.le_add_right _ _), Nat.add_sub_cancel_left]
      exact ih found

end Blocks

/-! ## The tokens of a window -/

theorem realParameter_of_small {n : Int} (small : n.natAbs ≤ Nat.pow 2 53) :
    realParameter (.finite (n < 0) (n.natAbs * Binary64.one)
      (Binary64.representable_mul_one small)) = (decimalText n).toList := by
  have whole : n.natAbs * Binary64.one % Binary64.one = 0 := Nat.mul_mod_left _ _
  have digits : n.natAbs * Binary64.one / Binary64.one = n.natAbs :=
    Nat.mul_div_cancel _ Binary64.pos_units_one
  unfold realParameter
  simp only [Binary64.isWhole, whole, digits, beq_self_eq_true, if_true, toList_decimalText]
  by_cases negative : n < 0
  · simp [negative, Int.ne_of_lt negative]
  · simp [negative]

namespace EncoderCommand

theorem secondsArgument_of_small {seconds : Int} (small : seconds.natAbs ≤ Nat.pow 2 53) :
    secondsArgument seconds = .ok (decimalText seconds) := by
  refine except_bind_eq_ok_iff.mpr ⟨_, Number.wholeToReal_of_small small, ?_⟩
  rw [realParameter_of_small small, String.ofList_toList]
  rfl

/-- The tokens of a command by which it reads a window. -/
def windowTokens (window : Window) : List String :=
  ["-ss", decimalText window.start, "-t", decimalText window.duration, "-i",
    window.path.toString]

theorem mapM_windowArguments_of_small {windows : List Window}
    (small : ∀ window ∈ windows,
      window.start.natAbs ≤ Nat.pow 2 53 ∧ window.duration.natAbs ≤ Nat.pow 2 53) :
    windows.mapM windowArguments = .ok (windows.map windowTokens) := by
  refine except_mapM_eq_ok_iff.mpr (List.forall₂_map_right_iff.mpr (List.forall₂_same.mpr ?_))
  intro window present
  obtain ⟨start, duration⟩ := small window present
  rw [windowArguments, secondsArgument_of_small start, secondsArgument_of_small duration]
  rfl

/-- How many tokens stand before those of the windows. -/
def openingSize (settings : EncoderSettings) : Nat :=
  if settings.hardware.getD "" = "" then 2 else 4

theorem length_opening (settings : EncoderSettings) :
    (opening settings).length = openingSize settings := by
  unfold opening openingSize
  cases settings.hardware with
  | none => rfl
  | some device =>
    by_cases blank : device = ""
    · simp [blank]
    · simp [blank]

/-- The tokens of the quality and of the frame rate are there unless these are too long. -/
theorem closing_of_short {settings : EncoderSettings} (quality : ¬ settings.quality.Overlong)
    (frameRate : ¬ settings.frameRate.Overlong) (output : Path) :
    ∃ tokens, closing settings output = .ok (tokens ++ [output.toString]) := by
  have given {value : Value} (short : ¬ value.Overlong) : value.bareText = .ok value.bare :=
    if_pos (Value.isSpellable_iff.mpr short)
  unfold closing
  rw [given quality, given frameRate]
  exact ⟨["-c:v", settings.videoCodec, "-preset", settings.videoPreset, settings.qualityOption,
    settings.quality.bare, "-pix_fmt", settings.pixelFormat, "-r", settings.frameRate.bare, "-c:a",
    settings.audioCodec, "-b:a", settings.audioBitrate, "-shortest"], rfl⟩

theorem closing_of_overlong {settings : EncoderSettings}
    (long : settings.quality.Overlong ∨ settings.frameRate.Overlong) (output : Path) :
    closing settings output = .error .badValue := by
  have refused {value : Value} (overlong : value.Overlong) : value.bareText = .error .badValue := by
    rw [Value.bareText, Value.isSpellable_eq_false_iff.mpr overlong]
    rfl
  unfold closing
  rcases long with quality | frameRate
  · rw [refused quality]
    rfl
  · rw [refused frameRate]
    unfold Value.bareText
    split <;> rfl

section Build

variable {graph : Graph} {settings : EncoderSettings} {expressions : List String}
  {video audio : String}
  (small : ∀ window ∈ graph.inputs,
    window.start.natAbs ≤ Nat.pow 2 53 ∧ window.duration.natAbs ≤ Nat.pow 2 53)
  (written : graph.filters = .ok expressions) (leaving : graph.terminalLabels = .ok (video, audio))

include small written leaving

/-- The command of a graph whose windows have small numbers. -/
theorem build_of_small {output : Path} {tokens : List String}
    (closed : closing settings output = .ok tokens) :
    build graph output settings = .ok (opening settings ++ (graph.inputs.flatMap windowTokens ++
      (["-filter_complex", ";".intercalate expressions, "-map", "[" ++ video ++ "]", "-map",
        "[" ++ audio ++ "]"] ++ tokens))) := by
  unfold build
  rw [mapM_windowArguments_of_small small, Graph.text, written, leaving, closed]
  simp [List.flatMap_def, Graph.bracketed]
  rfl

theorem build_of_unclosed {output : Path} {cause : Defect}
    (unclosed : closing settings output = .error cause) :
    build graph output settings = .error (.defect cause) := by
  unfold build
  rw [mapM_windowArguments_of_small small, Graph.text, written, leaving, unclosed]
  rfl

end Build

end EncoderCommand

/-! ## What a build leaves -/

namespace Graph

variable {graph : Graph} {expressions : List String}

/-- A node that reads one stream of a slot is written with just this stream before its chain. -/
theorem expression_of_input {node : Node} {slot : Int} {kind : StreamKind} {text : String}
    (reads : node.sources = [.input slot kind]) (written : graph.expression node = .ok text) :
    ∃ chain, text = bracketed (inputLabel slot kind) ++ chain ++ "[" ++ node.label ++ "]" := by
  unfold expression at written
  rw [reads] at written
  obtain ⟨sources, sourcesGiven, written⟩ := except_bind_eq_ok_iff.mp written
  obtain ⟨ops, _, written⟩ := except_bind_eq_ok_iff.mp written
  obtain rfl := except_pure_eq_ok_iff.mp written
  cases sourcesGiven
  exact ⟨",".intercalate ops, by simp [String.join, bracketed, String.append_assoc]⟩

theorem bracketed_inputLabel_video (slot : Int) :
    bracketed (inputLabel slot .video) = "[" ++ decimalText slot ++ ":v]" := by
  rw [bracketed, inputLabel, if_pos rfl, ← String.append_assoc, String.append_assoc]
  rfl

theorem bracketed_inputLabel_audio (slot : Int) :
    bracketed (inputLabel slot .audio) = "[" ++ decimalText slot ++ ":a]" := by
  rw [bracketed, inputLabel, if_neg nofun, ← String.append_assoc, String.append_assoc]
  rfl

/-- The place of a node is the only one of its label. -/
theorem labels_getElem?_iff (different : graph.labels.Nodup) {position : Nat} {node : Node}
    (found : graph.nodes[position]? = some node) (other : Nat) :
    graph.labels[other]? = some node.label ↔ other = position := by
  have own : graph.labels[position]? = some node.label := by
    rw [labels, List.getElem?_map, found]
    rfl
  constructor
  · intro same
    obtain ⟨within, _⟩ := List.getElem?_eq_some_iff.mp own
    exact ((List.getElem?_inj within different).mp (own.trans same.symm)).symm
  · rintro rfl
    exact own

end Graph

namespace Compilation

variable {existence : ExistenceCheck} {transition : Transition} {project : Project} {graph : Graph}
  {draft after : Draft}

/-- A build writes the graph that it gives, so the graph can be written. -/
theorem filters_of_run_build
    (built : (build existence transition project).run draft = .ok graph after) :
    ∃ expressions, graph.filters = .ok expressions := by
  obtain ⟨_, _, _, _, steps⟩ := steps_of_run_build built
  obtain ⟨_, _, _, _, _, _, written, _⟩ := steps.finishing
  obtain ⟨expressions, filters, _⟩ := except_bind_eq_ok_iff.mp written
  exact ⟨expressions, filters⟩

end Compilation

/-! ## The whole command -/

namespace EncoderCommand

/-- The node of a label reads the pad of a slot, and the slot reads the file of an id below a base,
from the second on that a time stands for. -/
structure Feeds (base : Path) (graph : Graph) (settings : EncoderSettings)
    (expressions command : List String) (label pad : String) (id time : Value) (slot : Nat) :
    Prop where
  /-- The label is that of one node, which is written with just the pad before its chain. -/
  node : ∃ (position : Nat) (chain : String),
    (∀ other : Nat, graph.labels[other]? = some label ↔ other = position) ∧
    expressions[position]? = some (pad ++ chain ++ "[" ++ label ++ "]")
  window : ∃ window, graph.inputs[slot]? = some window ∧
    Timecode.toSeconds time = .ok window.start
  file : ∃ name, id = .text name ∧
    command[openingSize settings + 6 * slot + 4]? = some "-i" ∧
    command[openingSize settings + 6 * slot + 5]? =
      some (base.join (Path.ofString name)).toString

/-- Where the tokens after the windows start. -/
def windowsEnd (graph : Graph) (settings : EncoderSettings) : Nat :=
  openingSize settings + 6 * graph.inputs.length

/-- A command for a graph: six tokens for each window after the opening ones, the filters and the
labels of what leaves the graph after the windows, and the output path last; and every node of a
cut reads the file that the cut names for it. -/
structure Laid (project : Project) (graph : Graph) (output : Path) (settings : EncoderSettings)
    (expressions command : List String) : Prop where
  windows : ∀ (slot : Nat) window, graph.inputs[slot]? = some window → ∀ place < 6,
    command[openingSize settings + 6 * slot + place]? = (windowTokens window)[place]?
  filters : command[windowsEnd graph settings]? = some "-filter_complex" ∧
    command[windowsEnd graph settings + 1]? = some (";".intercalate expressions)
  /-- What is mapped are the two nodes that no node reads. -/
  maps : ∃ (video audio : Nat) (picture sound : Node), graph.nodes[video]? = some picture ∧
    graph.nodes[audio]? = some sound ∧ picture.kind = .video ∧ sound.kind = .audio ∧
    command[windowsEnd graph settings + 2]? = some "-map" ∧
    command[windowsEnd graph settings + 3]? = some ("[" ++ picture.label ++ "]") ∧
    command[windowsEnd graph settings + 4]? = some "-map" ∧
    command[windowsEnd graph settings + 5]? = some ("[" ++ sound.label ++ "]") ∧
    ∀ position < graph.nodes.length,
      graph.reads.count (.node position) = 0 ↔ position = video ∨ position = audio
  last : command.getLast? = some output.toString
  pictures : ∀ (index : Nat) cut, project.cuts[index]? = some cut → ∃ slot : Nat,
    Feeds project.base graph settings expressions command
      ("v" ++ decimalText index) ("[" ++ decimalText slot ++ ":v]") cut.video.id cut.start slot
  sounds : ∀ (index place : Nat) cut id, project.cuts[index]? = some cut →
    cut.sources[place]? = some id → ∃ slot : Nat,
    Feeds project.base graph settings expressions command
      ("a" ++ decimalText index ++ "_" ++ decimalText place) ("[" ++ decimalText slot ++ ":a]")
      id cut.start slot

section Layout

variable {graph : Graph} {settings : EncoderSettings} {rest : List String}

theorem getElem?_windows {slot place : Nat} {window : Window}
    (found : graph.inputs[slot]? = some window) (within : place < 6) :
    (opening settings ++ (graph.inputs.flatMap windowTokens ++ rest))[
      openingSize settings + 6 * slot + place]? = (windowTokens window)[place]? := by
  have sizes : ∀ window, (windowTokens window).length = 6 := fun _ => rfl
  have inWindows : 6 * slot + place < (graph.inputs.flatMap windowTokens).length := by
    have below := (List.getElem?_eq_some_iff.mp found).1
    rw [length_flatMap_of_size sizes]
    omega
  rw [← length_opening, Nat.add_assoc, List.getElem?_append_right (Nat.le_add_right _ _),
    Nat.add_sub_cancel_left, List.getElem?_append_left inWindows]
  exact getElem?_flatMap_of_size sizes found within

theorem getElem?_after_windows (place : Nat) :
    (opening settings ++ (graph.inputs.flatMap windowTokens ++ rest))[
      windowsEnd graph settings + place]? = rest[place]? := by
  have sizes : ∀ window, (windowTokens window).length = 6 := fun _ => rfl
  rw [windowsEnd, ← length_opening, ← length_flatMap_of_size sizes, Nat.add_assoc,
    List.getElem?_append_right (Nat.le_add_right _ _), Nat.add_sub_cancel_left,
    List.getElem?_append_right (Nat.le_add_right _ _), Nat.add_sub_cancel_left]

end Layout

end EncoderCommand

namespace Compilation

open EncoderCommand

variable {existence : ExistenceCheck} {transition : Transition} {project : Project} {graph : Graph}
  {draft after : Draft} {assembly : Assembly} {output : Path} {settings : EncoderSettings}
  {expressions command : List String}

/-- A node of the graph that reads one stream of a slot is fed by the window there. -/
theorem Built.feeds (built : Built transition project graph assembly)
    (written : graph.filters = .ok expressions)
    (windows : ∀ (slot : Nat) window, graph.inputs[slot]? = some window → ∀ place < 6,
      command[openingSize settings + 6 * slot + place]? = (windowTokens window)[place]?)
    {node : Node} {slot : Nat} {kind : StreamKind} {window : Window} {time : Value} {name : String}
    (nodeIn : node ∈ graph.nodes) (reads : node.sources = [.input slot kind])
    (windowAt : graph.inputs[slot]? = some window)
    (starts : Timecode.toSeconds time = .ok window.start)
    (path : project.base.join (Path.ofString name) = window.path) :
    Feeds project.base graph settings expressions command node.label
      (Graph.bracketed (inputLabel slot kind)) (.text name) time slot := by
  obtain ⟨position, found⟩ := List.getElem?_of_mem nodeIn
  obtain ⟨text, textAt, expressed⟩ := except_getElem?_of_mapM written found
  obtain ⟨chain, rfl⟩ := Graph.expression_of_input reads expressed
  refine ⟨⟨position, chain, ?_, textAt⟩, ⟨window, windowAt, starts⟩, ⟨name, rfl, ?_, ?_⟩⟩
  · exact Graph.labels_getElem?_iff (Graph.labels_nodup built.nodup_keys) found
  · exact windows slot window windowAt 4 (by decide)
  · rw [path]
    exact windows slot window windowAt 5 (by decide)

/-- The picture and the sounds of a cut read the windows of its files. -/
theorem Built.feeds_of_cut (built : Built transition project graph assembly)
    (written : graph.filters = .ok expressions)
    (windows : ∀ (slot : Nat) window, graph.inputs[slot]? = some window → ∀ place < 6,
      command[openingSize settings + 6 * slot + place]? = (windowTokens window)[place]?)
    {index : Nat} {cut : Cut} (present : project.cuts[index]? = some cut) :
    (∃ slot : Nat, Feeds project.base graph settings expressions command
      ("v" ++ decimalText index) ("[" ++ decimalText slot ++ ":v]") cut.video.id cut.start slot) ∧
    ∀ (place : Nat) id, cut.sources[place]? = some id → ∃ slot : Nat,
      Feeds project.base graph settings expressions command
        ("a" ++ decimalText index ++ "_" ++ decimalText place) ("[" ++ decimalText slot ++ ":a]")
        id cut.start slot := by
  obtain ⟨earlier, own, inputs, start, duration, inputsAt, resolved, inWindows⟩ :=
    built.resolved.locate present
  rw [Nat.zero_add, Nat.zero_add] at resolved
  rw [← built.inputs_eq] at inWindows
  obtain ⟨⟨picture, pictureIn, pictured⟩, sounds⟩ := built.nodes_of_cut inputsAt
  have isIndex := resolved.index_eq
  constructor
  · obtain ⟨ops, _, rfl⟩ := SegmentStyle.videoNode_of_ok pictured
    have isSlot : inputs.video = earlier := by
      obtain ⟨_, _, _, _, _, rfl⟩ := resolved.rest
      rfl
    have listed : cut.sources[0]? = some cut.video.id := rfl
    obtain ⟨window, name, windowAt, starts, isText, path⟩ := resolved.source listed
    refine ⟨earlier, ?_⟩
    rw [← isIndex, isText, ← Graph.bracketed_inputLabel_video]
    refine built.feeds written windows pictureIn (by rw [isSlot])
      (inWindows 0 window windowAt) ?_ path
    rw [starts, resolved.starts]
  · intro place id listed
    have within : place ≤ cut.audio.length := by
      have below := (List.getElem?_eq_some_iff.mp listed).1
      rw [Cut.sources, List.length_cons, List.length_map] at below
      exact Nat.le_of_lt_succ below
    obtain ⟨_, _, _, _, _, _, _, _, slotAt, _, _⟩ := resolved.sound within
    obtain ⟨sound, soundIn, made⟩ := sounds place _ slotAt
    obtain ⟨_, _, ops, _, _, _, rfl⟩ := SegmentStyle.audioNode_of_ok made
    obtain ⟨window, name, windowAt, starts, isText, path⟩ := resolved.source listed
    refine ⟨earlier + place, ?_⟩
    rw [← isIndex, isText, ← Graph.bracketed_inputLabel_audio]
    refine built.feeds written windows soundIn rfl
      (inWindows place window windowAt) ?_ path
    rw [starts, resolved.starts]

/-- The command for a built graph whose windows have small numbers is laid out as it must be: every
window is read by six tokens in the order of the slots, so that the pads in the filters are those
of the files that the cuts name. There is no command just where the quality or the frame rate has
more digits than can be written. -/
theorem laid_of_run_build
    (compiled : (build existence transition project).run draft = .ok graph after)
    (small : ∀ window ∈ graph.inputs,
      window.start.natAbs ≤ Nat.pow 2 53 ∧ window.duration.natAbs ≤ Nat.pow 2 53)
    (output : Path) (settings : EncoderSettings) :
    (¬ settings.quality.Overlong → ¬ settings.frameRate.Overlong →
      ∃ expressions command, graph.filters = .ok expressions ∧
        EncoderCommand.build graph output settings = .ok command ∧
        Laid project graph output settings expressions command) ∧
    (settings.quality.Overlong ∨ settings.frameRate.Overlong →
      EncoderCommand.build graph output settings = .error (.defect .badValue)) := by
  obtain ⟨assembly, built⟩ := built_of_run compiled
  obtain ⟨expressions, written⟩ := filters_of_run_build compiled
  obtain ⟨video, audio, picture, sound, pictureAt, soundAt, isVideo, isAudio, labels, unread⟩ :=
    built.leaving
  refine ⟨fun quality frameRate => ?_, fun long =>
    build_of_unclosed small written labels (closing_of_overlong long output)⟩
  obtain ⟨tokens, closed⟩ := closing_of_short quality frameRate output
  refine ⟨expressions, _, written, build_of_small small written labels closed, ?_⟩
  constructor
  case windows =>
    intro slot window found place within
    exact getElem?_windows found within
  case filters => exact ⟨getElem?_after_windows 0, getElem?_after_windows 1⟩
  case maps =>
    exact ⟨video, audio, picture, sound, pictureAt, soundAt, isVideo, isAudio,
      getElem?_after_windows 2, getElem?_after_windows 3, getElem?_after_windows 4,
      getElem?_after_windows 5, unread⟩
  case last =>
    rw [← List.append_assoc, ← List.append_assoc, ← List.append_assoc, List.getLast?_concat]
  case pictures =>
    intro index cut present
    exact (built.feeds_of_cut written (fun _ _ found _ within => getElem?_windows found within)
      present).1
  case sounds =>
    intro index place cut id present
    exact (built.feeds_of_cut written (fun _ _ found _ within => getElem?_windows found within)
      present).2 place id

/-- The wind is a track of the first cut, so it is read by the second input. -/
theorem laid_sampleProject : ∃ graph after expressions command,
    (build (fun _ _ => .ok true) .plain sampleProject).run {} = .ok graph after ∧
      EncoderCommand.build graph ⟨0, ["out.mp4"]⟩ {} = .ok command ∧
      Laid sampleProject graph ⟨0, ["out.mp4"]⟩ {} expressions command ∧
      command[2 + 6 * 1 + 5]? = some "wind" ∧ command[2 + 6 * 1 + 3]? = some "8" := by
  have succeeds : Drafting.succeeds (build (fun _ _ => .ok true) .plain sampleProject) {}
      (fun graph => graph.inputs.map windowTokens == [
        ["-ss", "2", "-t", "7", "-i", "day"], ["-ss", "2", "-t", "8", "-i", "wind"],
        ["-ss", "0", "-t", "5", "-i", "night"], ["-ss", "0", "-t", "3", "-i", "rain"]] &&
        graph.inputs.all fun window => decide
          (window.start.natAbs ≤ Nat.pow 2 53 ∧ window.duration.natAbs ≤ Nat.pow 2 53)) = true := by
    decide +kernel
  obtain ⟨graph, after, compiled, known⟩ := Drafting.exists_of_succeeds succeeds
  obtain ⟨tokens, small⟩ := Bool.and_eq_true_iff.mp known
  have short : ¬ ({} : EncoderSettings).quality.Overlong ∧
      ¬ ({} : EncoderSettings).frameRate.Overlong :=
    ⟨Value.isSpellable_iff.mp (by decide +kernel), Value.isSpellable_iff.mp (by decide +kernel)⟩
  obtain ⟨expressions, command, _, made, laid⟩ := (laid_of_run_build compiled
    (fun window present => of_decide_eq_true (List.all_eq_true.mp small window present))
    ⟨0, ["out.mp4"]⟩ {}).1 short.1 short.2
  have second := congrArg (·[1]?) (eq_of_beq tokens)
  rw [List.getElem?_map] at second
  obtain ⟨wind, windAt, windTokens⟩ := Option.map_eq_some_iff.mp second
  refine ⟨graph, after, expressions, command, compiled, made, laid, ?_, ?_⟩
  · exact (laid.windows 1 wind windAt 5 (by decide)).trans (by rw [windTokens]; rfl)
  · exact (laid.windows 1 wind windAt 3 (by decide)).trans (by rw [windTokens]; rfl)

end Compilation
end Montage
