import Montage.Proofs.CrossfadeWarning
import Montage.Proofs.NodeOrigins
import Montage.Proofs.Topology

/-!
# Edits are local

Two projects that differ in one cut only, which keeps its count of tracks, are built to graphs of
one topology. An onlooker to whom the windows and nodes of that cut are hidden sees no difference
but in the joins behind it, which move by as much as the cut has become longer. Main statements:
`CutsResolved.hidden_eq`, that the windows and inputs of all other cuts are the same, and
`changedOnlyAt_of_run_build`, the whole of it.
-/

namespace Montage

open Drafting

/-- Two projects that a build can tell apart by the cut at one place only, which has as many tracks
in both. -/
structure Project.EditedAt (project edited : Project) (place : Nat) : Prop where
  base : project.base = edited.base
  fade : project.fade = edited.fade
  frame : project.frame = edited.frame
  tracks : project.cuts.map (·.audio.length) = edited.cuts.map (·.audio.length)
  elsewhere : ∀ index, index ≠ place → project.cuts[index]? = edited.cuts[index]?

theorem Project.EditedAt.symm {project edited : Project} {place : Nat}
    (edit : project.EditedAt edited place) : edited.EditedAt project place where
  base := edit.base.symm
  fade := edit.fade.symm
  frame := edit.frame.symm
  tracks := edit.tracks.symm
  elsewhere := fun index other => (edit.elsewhere index other).symm

/-- A graph and what it becomes when the cut at a place is edited and lasts longer by `change`. -/
structure Graph.ChangedOnlyAt (graph edited : Graph) (place : Nat) (crossfade change : Int) :
    Prop where
  labels : graph.labels = edited.labels
  sources : graph.nodes.map (·.sources) = edited.nodes.map (·.sources)
  /-- The slots of all other cuts are the same. -/
  windows : ∀ (slot : Nat) window, window.index ≠ (place : Int) →
    (graph.inputs[slot]? = some window ↔ edited.inputs[slot]? = some window)
  /-- So are the nodes, be they those of other cuts or joined sounds. -/
  nodes : ∀ (position : Nat) node, node.role ≠ .videoJoin →
    (node.ofSegment → node.index ≠ (place : Int)) →
    (graph.nodes[position]? = some node ↔ edited.nodes[position]? = some node)
  /-- The joins up to the cut start as before, those behind it are moved. -/
  joins : 0 < crossfade → ∀ index : Nat, 0 < index → index < graph.durations.length →
    ∃ start, Compilation.JoinsAt graph index start ∧
      Compilation.JoinsAt edited index (if index ≤ place then start else start + change)
  /-- Cuts that are put end to end have no offsets, and are joined in the same way. -/
  straight : crossfade ≤ 0 → ∀ (position : Nat) node, node.role = .videoJoin →
    (graph.nodes[position]? = some node ↔ edited.nodes[position]? = some node)
  total : ∃ total : Int, graph.total = .int total ∧ edited.total = .int (total + change)

/-! ## Hiding one cut -/

/-- An item, or nothing if it belongs to the cut at a place. -/
def hideAt {α : Type} (place : Nat) (index : α → Int) (item : α) : Option α :=
  if index item = place then none else some item

section Hiding

variable {α : Type} {place : Nat} {index : α → Int} {items others : List α} {item : α}

theorem hideAt_eq_some_iff {shown : α} :
    hideAt place index item = some shown ↔ index item ≠ place ∧ item = shown := by
  unfold hideAt
  split
  · next hidden => exact iff_of_false nofun fun both => both.1 hidden
  · next open_ => simp [open_]

theorem map_hideAt_of_all (index : α → Int) (all : ∀ item ∈ items, index item = place) :
    items.map (hideAt place index) = List.replicate items.length none := by
  refine List.eq_replicate_of_mem ?_ |>.trans (by rw [List.length_map])
  intro shown present
  obtain ⟨item, itemIn, rfl⟩ := List.mem_map.mp present
  exact if_pos (all item itemIn)

/-- What is not hidden stands at the same position in both lists. -/
theorem getElem?_of_map_hideAt_eq
    (same : items.map (hideAt place index) = others.map (hideAt place index)) {position : Nat}
    (found : items[position]? = some item) (elsewhere : index item ≠ place) :
    others[position]? = some item := by
  have shown := congrArg (·[position]?) same
  simp only [List.getElem?_map, found, Option.map_some] at shown
  obtain ⟨other, otherAt, visible⟩ := Option.map_eq_some_iff.mp shown.symm
  rw [hideAt_eq_some_iff.mpr ⟨elsewhere, rfl⟩] at visible
  rw [otherAt, (hideAt_eq_some_iff.mp visible).2]

end Hiding

/-! ## Windows and inputs -/

namespace CutInputs

variable {base : Path} {index slot : Nat}

theorem TrackResolved.unique {number : Nat} {start duration : Int} {track : AudioTrack}
    {entry other : Window × Int × Value}
    (first : TrackResolved base index start duration number track entry)
    (second : TrackResolved base index start duration number track other) : entry = other := by
  have offset : entry.2.1 = other.2.1 := Except.ok.inj (first.shift.symm.trans second.shift)
  have path : entry.1.path = other.1.path := Except.ok.inj (first.path.symm.trans second.path)
  have window : entry.1 = other.1 := by rw [first.window, second.window, path, offset]
  exact Prod.ext window (Prod.ext offset (first.volume.trans second.volume.symm))

theorem TracksResolved.unique {number : Nat} {start duration : Int} {tracks : List AudioTrack}
    {entries others : List (Window × Int × Value)}
    (first : TracksResolved base index start duration number tracks entries)
    (second : TracksResolved base index start duration number tracks others) :
    entries = others := by
  induction first generalizing others with
  | nil =>
    cases second
    rfl
  | cons head _ ih =>
    cases second with
    | cons otherHead otherTail => rw [head.unique otherHead, ih otherTail]

/-- A cut resolves to one list of windows and to one record of inputs. -/
theorem CutResolved.unique {cut : Cut} {start duration otherStart otherDuration : Int}
    {windows otherWindows : List Window} {inputs otherInputs : CutInputs}
    (first : CutResolved base index slot cut start duration windows inputs)
    (second : CutResolved base index slot cut otherStart otherDuration otherWindows otherInputs) :
    windows = otherWindows ∧ inputs = otherInputs := by
  obtain rfl : start = otherStart := Except.ok.inj (first.starts.symm.trans second.starts)
  obtain rfl : duration = otherDuration :=
    Int.add_left_cancel (Except.ok.inj (first.ends.symm.trans second.ends))
  obtain ⟨path, entries, named, tracks, rfl, rfl⟩ := first.rest
  obtain ⟨otherPath, otherEntries, otherNamed, otherTracks, rfl, rfl⟩ := second.rest
  obtain rfl : path = otherPath := Except.ok.inj (named.symm.trans otherNamed)
  obtain rfl := tracks.unique otherTracks
  exact ⟨rfl, rfl⟩

theorem CutResolved.index_of_window {cut : Cut} {start duration : Int} {windows : List Window}
    {inputs : CutInputs}
    (resolved : CutResolved base index slot cut start duration windows inputs) :
    ∀ window ∈ windows, window.index = index := by
  intro window present
  have used : window.use ∈ CutPlace.uses ⟨index, slot, 0, cut.audio.length + 1⟩ := by
    rw [← resolved.uses_eq 0]
    exact List.mem_map_of_mem present
  rcases List.mem_cons.mp used with own | track
  · exact congrArg (·.2.1) own
  · obtain ⟨_, _, own⟩ := List.mem_map.mp track
    exact congrArg (·.2.1) own.symm

/-- The windows and inputs of all cuts but one do not change with it. -/
theorem CutsResolved.hidden_eq {cuts others : List Cut} {windows otherWindows : List Window}
    {inputs otherInputs : List CutInputs} {place : Nat}
    (first : CutsResolved base index slot cuts windows inputs)
    (second : CutsResolved base index slot others otherWindows otherInputs)
    (tracks : cuts.map (·.audio.length) = others.map (·.audio.length))
    (elsewhere : ∀ position, index + position ≠ place → cuts[position]? = others[position]?) :
    windows.map (hideAt place (·.index)) = otherWindows.map (hideAt place (·.index)) ∧
      inputs.map (hideAt place (·.index)) = otherInputs.map (hideAt place (·.index)) := by
  induction first generalizing others otherWindows otherInputs with
  | nil =>
    cases second with
    | nil => exact ⟨rfl, rfl⟩
    | cons => cases tracks
  | @cons index slot cut _ _ own ownInputs cuts _ _ head _ ih =>
    cases second with
    | nil => cases tracks
    | @cons _ _ other _ _ otherOwn otherOwnInputs others _ _ otherHead otherTail =>
      obtain ⟨count, counts⟩ := List.cons.inj tracks
      dsimp only at count
      have length : own.length = otherOwn.length := by
        rw [head.length_windows, otherHead.length_windows, count]
      rw [← length] at otherTail
      obtain ⟨windows, inputs⟩ := ih otherTail counts fun position differs => by
        simpa using elsewhere (position + 1) (by omega)
      rw [List.map_append, List.map_append, List.map_cons, List.map_cons, windows, inputs]
      by_cases here : index = place
      · -- All that belongs to the edited cut is hidden.
        subst here
        have hidden := map_hideAt_of_all Window.index head.index_of_window
        have otherHidden := map_hideAt_of_all Window.index otherHead.index_of_window
        rw [hidden, otherHidden, length, hideAt, hideAt, if_pos head.index_eq,
          if_pos otherHead.index_eq]
        exact ⟨rfl, rfl⟩
      · obtain rfl : cut = other := by simpa using elsewhere 0 (by simpa using here)
        obtain ⟨rfl, rfl⟩ := head.unique otherHead
        exact ⟨rfl, rfl⟩

/-- Inputs are numbered by their positions. -/
theorem CutsResolved.index_of_getElem? {cuts : List Cut} {windows : List Window}
    {inputs : List CutInputs} {cut : CutInputs} {position : Nat}
    (resolved : CutsResolved base 0 slot cuts windows inputs)
    (found : inputs[position]? = some cut) : cut.index = position := by
  have within := (List.getElem?_eq_some_iff.mp found).1
  have indexAt := congrArg (·[position]?) resolved.indices_eq
  simp only [List.getElem?_map, found, Option.map_some, List.getElem?_range' within] at indexAt
  rw [Option.some.inj indexAt, Nat.one_mul, Nat.zero_add]

end CutInputs

/-! ## Nodes -/

section Nodes

variable {style : SegmentStyle} {total : Int} {cut : CutInputs} {node other : Node}
  {crossfade : Value} {transition : Transition}

theorem SegmentStyle.Draws.ofSegment (drawn : style.Draws total cut node) : node.ofSegment := by
  cases drawn with
  | picture => exact .inl rfl
  | sound => exact .inr (.inl rfl)
  | mix => exact .inr (.inr rfl)

theorem SegmentStyle.Draws.index_eq (drawn : style.Draws total cut node) :
    node.index = cut.index := by
  cases drawn <;> rfl

theorem Composite.Joins.not_ofSegment (joins : Joins crossfade transition node) :
    ¬ node.ofSegment := by
  cases joins <;> simp [Node.ofSegment, joinNode]

theorem Node.ofSegment_of_shape (ofSegment : node.ofSegment) (shape : node.shape = other.shape) :
    other.ofSegment := by
  have role : node.role = other.role := congrArg NodeShape.role shape
  unfold Node.ofSegment at ofSegment ⊢
  rwa [role] at ofSegment

/-- The nodes of one cut are known by their shapes. -/
theorem SegmentStyle.Draws.eq_of_shape (drawn : style.Draws total cut node)
    (otherDrawn : style.Draws total cut other) (shape : node.shape = other.shape) :
    node = other := by
  cases drawn with
  | picture given =>
    cases otherDrawn with
    | picture otherGiven =>
      obtain rfl := Except.ok.inj (given.symm.trans otherGiven)
      rfl
    | sound => cases congrArg NodeShape.role shape
    | mix => cases congrArg NodeShape.role shape
  | @sound track _ _ _ _ slotAt offsetAt volumeAt given =>
    cases otherDrawn with
    | picture => cases congrArg NodeShape.role shape
    | @sound otherTrack _ _ _ _ otherSlotAt otherOffsetAt otherVolumeAt otherGiven =>
      obtain rfl : track = otherTrack := Int.ofNat.inj (congrArg NodeShape.track shape)
      obtain rfl := Option.some.inj (slotAt.symm.trans otherSlotAt)
      obtain rfl := Option.some.inj (offsetAt.symm.trans otherOffsetAt)
      obtain rfl := Option.some.inj (volumeAt.symm.trans otherVolumeAt)
      obtain rfl := Except.ok.inj (given.symm.trans otherGiven)
      rfl
    | mix => cases congrArg NodeShape.role shape
  | mix sounds =>
    cases otherDrawn with
    | picture => cases congrArg NodeShape.role shape
    | sound => cases congrArg NodeShape.role shape
    | mix otherSounds =>
      have reads : (sounds.map fun (position : Nat) => Source.node position) =
          otherSounds.map fun (position : Nat) => Source.node position :=
        congrArg NodeShape.sources shape
      have injective : Function.Injective fun (position : Nat) => Source.node position :=
        fun _ _ same => Int.ofNat.inj (Source.node.inj same)
      rw [List.map_injective_iff.mpr injective reads]

/-- Joined sounds are known by their shapes, and without a crossfade so are joined pictures. -/
theorem Composite.Joins.eq_of_shape (joins : Joins crossfade transition node)
    (otherJoins : Joins crossfade transition other) (shape : node.shape = other.shape)
    (still : node.role = .videoJoin → crossfade.le (.int 0) = .ok true) : node = other := by
  obtain ⟨role, kind, index, track, sources⟩ := NodeShape.mk.inj shape
  cases joins with
  | picture _ given =>
    cases otherJoins with
    | picture _ otherGiven =>
      -- What is put end to end does not depend on the offset.
      rw [Transition.videoOp, still rfl] at given otherGiven
      cases given
      cases otherGiven
      exact Node.mk.injEq .. ▸ ⟨role, kind, index, sources, rfl, track⟩
    | sound => cases role
  | sound given =>
    cases otherJoins with
    | picture => cases role
    | sound otherGiven =>
      obtain rfl := Except.ok.inj (given.symm.trans otherGiven)
      exact Node.mk.injEq .. ▸ ⟨role, kind, index, sources, rfl, track⟩

end Nodes

/-! ## Lengths -/

namespace Timeline

variable {crossfade length change : Int} {lengths : List Int} {place : Nat}

theorem sum_set_of_lt (found : lengths[place]? = some length) :
    (lengths.set place (length + change)).sum = lengths.sum + change := by
  obtain ⟨within, rfl⟩ := List.getElem?_eq_some_iff.mp found
  rw [List.sum_set', dif_pos within]
  omega

/-- A cut that has become longer moves the joins behind it, and no others. -/
theorem joinStart_set (crossfade change : Int) (found : lengths[place]? = some length)
    (index : Nat) :
    joinStart crossfade (lengths.set place (length + change)) index =
      if index ≤ place then joinStart crossfade lengths index
      else joinStart crossfade lengths index + change := by
  unfold joinStart
  split
  · next before => rw [List.take_set_of_le before]
  · next behind =>
    have inside : (lengths.take index)[place]? = some length := by
      rw [List.getElem?_take_of_lt (Nat.lt_of_not_le behind), found]
    rw [List.take_set, sum_set_of_lt inside]
    omega

end Timeline

namespace Compilation

open Timeline

variable {existence otherExistence : ExistenceCheck} {transition : Transition}
  {project edited : Project} {graph editedGraph : Graph} {draft after otherDraft otherAfter : Draft}

namespace Built

variable {assembly editedAssembly : Assembly} {place : Nat} {crossfade : Int} {lengths : List Int}

/-- The timeline ends one crossfade after a further join would start. -/
theorem total_eq (built : Built transition project graph assembly)
    (whole : project.fade.crossfade = .int crossfade)
    (durations : graph.durations = lengths.map Value.int) :
    graph.total = .int (joinStart crossfade lengths lengths.length + crossfade) := by
  obtain ⟨first, rest, split, _⟩ := Composite.steps_of_run_compose built.joins
  obtain ⟨total, _⟩ := checkTotal_eq_ok_iff.mp built.total
  rw [← built.durations_eq, durations, whole] at total
  cases lengths with
  | nil =>
    have count := congrArg List.length (built.durations_eq.symm.trans durations)
    rw [List.length_map, ← built.segments_length, split] at count
    cases count
  | cons length lengths =>
    rw [totalOf_int] at total
    rw [← Except.ok.inj total, joinStart, List.take_length, List.sum_eq_foldl, List.foldl_cons,
      Int.zero_add, List.length_cons, Int.natCast_succ, Int.mul_add]
    congr 1
    omega

/-- Both graphs are built of cuts that are the same but for the edited one. -/
theorem hidden_eq (built : Built transition project graph assembly)
    (editedBuilt : Built transition edited editedGraph editedAssembly)
    (edit : project.EditedAt edited place) :
    assembly.windows.map (hideAt place (·.index)) =
        editedAssembly.windows.map (hideAt place (·.index)) ∧
      assembly.cuts.map (hideAt place (·.index)) =
        editedAssembly.cuts.map (hideAt place (·.index)) := by
  have resolved := editedBuilt.resolved
  rw [← edit.base] at resolved
  refine built.resolved.hidden_eq resolved edit.tracks ?_
  intro position differs
  rw [Nat.zero_add] at differs
  exact edit.elsewhere position differs

theorem topology_eq_of_edited (built : Built transition project graph assembly)
    (editedBuilt : Built transition edited editedGraph editedAssembly)
    (edit : project.EditedAt edited place) : graph.topology = editedGraph.topology := by
  rw [built.topology_eq, editedBuilt.topology_eq, edit.tracks]

theorem cuts_length_eq (built : Built transition project graph assembly)
    (editedBuilt : Built transition edited editedGraph editedAssembly)
    (edit : project.EditedAt edited place) :
    editedAssembly.cuts.length = assembly.cuts.length := by
  rw [built.resolved.length_eq, editedBuilt.resolved.length_eq]
  simpa using (congrArg List.length edit.tracks).symm

/-- Nodes of one index off the edited place draw one cut. -/
theorem cut_eq_of_edited (built : Built transition project graph assembly)
    (editedBuilt : Built transition edited editedGraph editedAssembly)
    (edit : project.EditedAt edited place) {cut other : CutInputs} (present : cut ∈ assembly.cuts)
    (otherPresent : other ∈ editedAssembly.cuts) (same : cut.index = other.index)
    (elsewhere : cut.index ≠ (place : Int)) : cut = other := by
  obtain ⟨position, found⟩ := List.getElem?_of_mem present
  obtain ⟨otherPosition, otherFound⟩ := List.getElem?_of_mem otherPresent
  obtain rfl : position = otherPosition := by
    rw [built.resolved.index_of_getElem? found,
      editedBuilt.resolved.index_of_getElem? otherFound] at same
    exact Int.ofNat.inj same
  have kept := getElem?_of_map_hideAt_eq (built.hidden_eq editedBuilt edit).2 found elsewhere
  exact Option.some.inj (kept.symm.trans otherFound)

/-- Nodes of one shape are the same if they do not draw the edited cut. -/
theorem eq_of_shape_of_edited (built : Built transition project graph assembly)
    (editedBuilt : Built transition edited editedGraph editedAssembly)
    (edit : project.EditedAt edited place) {node other : Node} (present : node ∈ graph.nodes)
    (otherPresent : other ∈ editedGraph.nodes) (shape : node.shape = other.shape)
    (elsewhere : node.ofSegment → node.index ≠ (place : Int))
    (still : node.role = .videoJoin → project.fade.crossfade.le (.int 0) = .ok true) :
    node = other := by
  have origin := built.origin present
  have otherOrigin := editedBuilt.origin otherPresent
  have style : SegmentStyle.ofProject edited = SegmentStyle.ofProject project := by
    rw [SegmentStyle.ofProject, SegmentStyle.ofProject, edit.fade, edit.frame]
  rw [style, built.cuts_length_eq editedBuilt edit, ← edit.fade] at otherOrigin
  cases origin with
  | inl drawing =>
    obtain ⟨cut, cutIn, drawn⟩ := drawing
    cases otherOrigin with
    | inl otherDrawing =>
      obtain ⟨otherCut, otherCutIn, otherDrawn⟩ := otherDrawing
      have indices : cut.index = otherCut.index := by
        rw [← drawn.index_eq, ← otherDrawn.index_eq]
        exact congrArg NodeShape.index shape
      have away : cut.index ≠ (place : Int) := by
        rw [← drawn.index_eq]
        exact elsewhere drawn.ofSegment
      obtain rfl := built.cut_eq_of_edited editedBuilt edit cutIn otherCutIn indices away
      exact drawn.eq_of_shape otherDrawn shape
    | inr otherJoins =>
      exact absurd (Node.ofSegment_of_shape drawn.ofSegment shape) otherJoins.not_ofSegment
  | inr joins =>
    cases otherOrigin with
    | inl otherDrawing =>
      obtain ⟨_, _, otherDrawn⟩ := otherDrawing
      exact absurd (Node.ofSegment_of_shape otherDrawn.ofSegment shape.symm) joins.not_ofSegment
    | inr otherJoins => exact joins.eq_of_shape otherJoins shape still

/-- What does not draw the edited cut stands at the same position in the graph of the edit. -/
theorem getElem?_of_edited (built : Built transition project graph assembly)
    (editedBuilt : Built transition edited editedGraph editedAssembly)
    (edit : project.EditedAt edited place) {position : Nat} {node : Node}
    (elsewhere : node.ofSegment → node.index ≠ (place : Int))
    (still : node.role = .videoJoin → project.fade.crossfade.le (.int 0) = .ok true)
    (found : graph.nodes[position]? = some node) :
    editedGraph.nodes[position]? = some node := by
  have shapes := congrArg (fun topology => topology.shapes[position]?)
    (built.topology_eq_of_edited editedBuilt edit)
  simp only [Graph.topology, Graph.shapes, List.getElem?_map, found, Option.map_some] at shapes
  obtain ⟨other, otherFound, shape⟩ := Option.map_eq_some_iff.mp shapes.symm
  rw [otherFound, built.eq_of_shape_of_edited editedBuilt edit (List.mem_of_getElem? found)
    (List.mem_of_getElem? otherFound) shape.symm elsewhere still]

theorem getElem?_iff_of_edited (built : Built transition project graph assembly)
    (editedBuilt : Built transition edited editedGraph editedAssembly)
    (edit : project.EditedAt edited place) {position : Nat} {node : Node}
    (elsewhere : node.ofSegment → node.index ≠ (place : Int))
    (still : node.role = .videoJoin → project.fade.crossfade.le (.int 0) = .ok true) :
    graph.nodes[position]? = some node ↔ editedGraph.nodes[position]? = some node := by
  refine ⟨built.getElem?_of_edited editedBuilt edit elsewhere still, ?_⟩
  rw [edit.fade] at still
  exact editedBuilt.getElem?_of_edited built edit.symm elsewhere still

theorem inputs_iff_of_edited (built : Built transition project graph assembly)
    (editedBuilt : Built transition edited editedGraph editedAssembly)
    (edit : project.EditedAt edited place) {slot : Nat} {window : Window}
    (elsewhere : window.index ≠ (place : Int)) :
    graph.inputs[slot]? = some window ↔ editedGraph.inputs[slot]? = some window := by
  rw [built.inputs_eq, editedBuilt.inputs_eq]
  have hidden := (built.hidden_eq editedBuilt edit).1
  exact ⟨fun present => getElem?_of_map_hideAt_eq hidden present elsewhere,
    fun present => getElem?_of_map_hideAt_eq hidden.symm present elsewhere⟩

theorem length_durations (built : Built transition project graph assembly) :
    graph.durations.length = project.cuts.length := by
  rw [built.durations_eq, List.length_map, built.resolved.length_eq]

/-- All other cuts last as long as before. -/
theorem durations_of_edited (built : Built transition project graph assembly)
    (editedBuilt : Built transition edited editedGraph editedAssembly)
    (edit : project.EditedAt edited place) {position : Nat} (away : position ≠ place) :
    graph.durations[position]? = editedGraph.durations[position]? := by
  rw [built.durations_eq, editedBuilt.durations_eq, List.getElem?_map, List.getElem?_map]
  cases found : assembly.cuts[position]? with
  | some cut =>
    have differs : cut.index ≠ (place : Int) := by
      rw [built.resolved.index_of_getElem? found]
      exact fun same => away (Int.ofNat.inj same)
    rw [getElem?_of_map_hideAt_eq (built.hidden_eq editedBuilt edit).2 found differs]
  | none =>
    rw [List.getElem?_eq_none_iff, ← built.cuts_length_eq editedBuilt edit] at found
    rw [List.getElem?_eq_none found]

/-- The lengths of the cuts after the edit are those before it, with one exchanged. -/
theorem durations_eq_set (built : Built transition project graph assembly)
    (editedBuilt : Built transition edited editedGraph editedAssembly)
    (edit : project.EditedAt edited place) (inside : place < project.cuts.length) :
    ∃ (lengths : List Int) (length editedLength : Int), lengths[place]? = some length ∧
      graph.durations = lengths.map Value.int ∧
      editedGraph.durations = (lengths.set place editedLength).map Value.int := by
  obtain ⟨lengths, durations, _⟩ := built.segmentsLast
  obtain ⟨editedLengths, editedDurations, _⟩ := editedBuilt.segmentsLast
  rw [← built.durations_eq] at durations
  rw [← editedBuilt.durations_eq] at editedDurations
  have within : place < lengths.length := by
    rwa [← built.length_durations, durations, List.length_map] at inside
  have editedWithin : place < editedLengths.length := by
    have count : project.cuts.length = edited.cuts.length := by
      simpa using congrArg List.length edit.tracks
    rwa [count, ← editedBuilt.length_durations, editedDurations, List.length_map] at inside
  refine ⟨lengths, lengths[place], editedLengths[place], List.getElem?_eq_getElem within,
    durations, ?_⟩
  rw [editedDurations]
  congr 1
  refine List.ext_getElem? fun position => ?_
  by_cases here : place = position
  · rw [← here, List.getElem?_set_self within, List.getElem?_eq_getElem editedWithin]
  · have away := built.durations_of_edited editedBuilt edit (Ne.symm here)
    rw [durations, editedDurations, List.getElem?_map, List.getElem?_map] at away
    rw [List.getElem?_set_ne here]
    exact (Option.map_injective (fun _ _ => Value.int.inj) away).symm

end Built

/-- An edit of one cut changes the windows and nodes of this cut only. The joins behind it and the
end of the timeline are moved by as much as the cut has become longer. -/
theorem changedOnlyAt_of_run_build {place : Nat} {crossfade : Int}
    (built : (build existence transition project).run draft = .ok graph after)
    (editedBuilt : (build otherExistence transition edited).run otherDraft =
      .ok editedGraph otherAfter)
    (edit : project.EditedAt edited place) (inside : place < project.cuts.length)
    (whole : project.fade.crossfade = .int crossfade) :
    ∃ length editedLength : Int, graph.durations[place]? = some (.int length) ∧
      editedGraph.durations[place]? = some (.int editedLength) ∧
      graph.ChangedOnlyAt editedGraph place crossfade (editedLength - length) := by
  obtain ⟨_, built⟩ := built_of_run built
  obtain ⟨_, editedBuilt⟩ := built_of_run editedBuilt
  obtain ⟨lengths, length, editedLength, found, durations, editedDurations⟩ :=
    built.durations_eq_set editedBuilt edit inside
  have within : place < lengths.length := (List.getElem?_eq_some_iff.mp found).1
  have editedWhole : edited.fade.crossfade = .int crossfade := by rw [← edit.fade, whole]
  have topology := Graph.sameTopology_of_topology_eq (built.topology_eq_of_edited editedBuilt edit)
  have starts := joinStart_set crossfade (editedLength - length) found
  rw [show length + (editedLength - length) = editedLength by omega] at starts
  refine ⟨length, editedLength, ?_, ?_, ?_⟩
  · rw [durations, List.getElem?_map, found, Option.map_some]
  · rw [editedDurations, List.getElem?_map, List.getElem?_set_self within, Option.map_some]
  constructor
  case labels => exact topology.labels
  case sources => exact topology.sources
  case windows => exact fun _ _ away => built.inputs_iff_of_edited editedBuilt edit away
  case nodes =>
    intro position node notJoin away
    exact built.getElem?_iff_of_edited editedBuilt edit away fun isJoin => absurd isJoin notJoin
  case joins =>
    intro positive index joined inGraph
    rw [durations, List.length_map] at inGraph
    refine ⟨_, built.joinsAt whole durations positive joined inGraph, ?_⟩
    rw [← starts]
    refine editedBuilt.joinsAt editedWhole editedDurations positive joined ?_
    rwa [List.length_set]
  case straight =>
    intro endToEnd position node isJoin
    have away : node.ofSegment → node.index ≠ (place : Int) := by
      intro ofSegment
      simp [Node.ofSegment, isJoin] at ofSegment
    have still : (Value.int crossfade).le (.int 0) = .ok true := by
      rw [Value.le_int, decide_eq_true endToEnd]
    exact built.getElem?_iff_of_edited editedBuilt edit away fun _ => by rw [whole, still]
  case total =>
    refine ⟨_, built.total_eq whole durations, ?_⟩
    rw [editedBuilt.total_eq editedWhole editedDurations, List.length_set, starts,
      if_neg (Nat.not_le_of_lt within), Int.add_right_comm]

/-- The sample project with another first cut, which lasts four seconds longer. -/
def editedSampleProject : Project :=
  { sampleProject with
    cuts := sampleProject.cuts.set 0
      ⟨⟨.text "dusk", .int 3⟩, .int 1, .int 12, [⟨.text "wind", .int 2, .int 4⟩]⟩ }

theorem changedOnlyAt_sampleProject : ∃ graph after editedGraph editedAfter,
    (build (fun _ _ => .ok true) .plain sampleProject).run {} = .ok graph after ∧
      (build (fun _ _ => .ok true) .plain editedSampleProject).run {} =
        .ok editedGraph editedAfter ∧
      graph.ChangedOnlyAt editedGraph 0 1 4 := by
  have succeeds : Drafting.succeeds (build (fun _ _ => .ok true) .plain sampleProject) {}
      (fun graph => graph.durations[0]? = some (.int 7)) = true := by
    decide +kernel
  have editedSucceeds : Drafting.succeeds (build (fun _ _ => .ok true) .plain editedSampleProject)
      {} (fun graph => graph.durations[0]? = some (.int 11)) = true := by
    decide +kernel
  obtain ⟨graph, after, built, lasts⟩ := exists_of_succeeds succeeds
  obtain ⟨editedGraph, editedAfter, editedBuilt, editedLasts⟩ := exists_of_succeeds editedSucceeds
  have edit : sampleProject.EditedAt editedSampleProject 0 := by
    constructor
    case elsewhere => exact fun index other => (List.getElem?_set_ne other.symm).symm
    all_goals rfl
  obtain ⟨length, editedLength, isLength, isEditedLength, changed⟩ :=
    changedOnlyAt_of_run_build built editedBuilt edit (by decide) rfl
  obtain rfl : length = 7 := by simpa [isLength] using lasts
  obtain rfl : editedLength = 11 := by simpa [isEditedLength] using editedLasts
  exact ⟨graph, after, editedGraph, editedAfter, built, editedBuilt, changed⟩

end Compilation

end Montage
