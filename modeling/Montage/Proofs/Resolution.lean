import Montage.Compile.CutInputs
import Montage.Proofs.Drafting

/-!
# What a cut resolves to

The windows and inputs of a project that resolves, told without the steps that find them. A cut
that stands at `index`, with its windows from `slot` on, resolves to the window of its video and
one window for each track (`CutResolved`); a list of cuts resolves to these one after the other
(`CutsResolved`). Main statements: `cutsResolved_of_run` says that resolving gives just this and
leaves the graph as it is; `CutsResolved.locate` finds the windows of one cut among all windows;
`CutResolved.sound` gives the slot, the window and the shift of each sound of a cut.
-/

namespace Montage

open Drafting

/-- The seconds by which a track is moved; an offset that counts as absent moves it by none. -/
def AudioTrack.shift (track : AudioTrack) : Except Failure Int :=
  if track.offset.isPresent then Timecode.toSeconds track.offset else .ok 0

/-- The shifts of the sounds of a cut: the video's own sound is not moved, then the tracks. -/
def Cut.shifts (cut : Cut) : List (Except Failure Int) :=
  .ok 0 :: cut.audio.map AudioTrack.shift

/-- The ids of the files of a cut: that of its video, then those of its tracks. -/
def Cut.sources (cut : Cut) : List Value :=
  cut.video.id :: cut.audio.map (·.id)

namespace CutInputs

variable {existence : ExistenceCheck} {base : Path} {draft after : Draft}

/-- A track of a cut that lasts `duration` seconds from `start` on, its window, its offset and its
volume. -/
structure TrackResolved (base : Path) (index : Nat) (start duration : Int) (number : Nat)
    (track : AudioTrack) (entry : Window × Int × Value) : Prop where
  shift : track.shift = .ok entry.2.1
  volume : entry.2.2 = track.volume
  path : mediaPath base track.id = .ok entry.1.path
  window : entry.1 =
    ⟨track.id, entry.1.path, .audio, start, duration - entry.2.1, index, number⟩
  remains : 0 < duration - entry.2.1

/-- Tracks that are numbered from `number` on, each with what it resolves to. -/
inductive TracksResolved (base : Path) (index : Nat) (start duration : Int) :
    Nat → List AudioTrack → List (Window × Int × Value) → Prop
  | nil {number : Nat} : TracksResolved base index start duration number [] []
  | cons {number : Nat} {track : AudioTrack} {entry : Window × Int × Value}
      {tracks : List AudioTrack} {entries : List (Window × Int × Value)} :
      TrackResolved base index start duration number track entry →
      TracksResolved base index start duration (number + 1) tracks entries →
      TracksResolved base index start duration number (track :: tracks) (entry :: entries)

/-- A cut at `index` with its windows and inputs, the windows being numbered from `slot` on. -/
structure CutResolved (base : Path) (index slot : Nat) (cut : Cut) (start duration : Int)
    (windows : List Window) (inputs : CutInputs) : Prop where
  starts : Timecode.toSeconds cut.start = .ok start
  ends : Timecode.toSeconds cut.finish = .ok (start + duration)
  lasts : 0 < duration
  rest : ∃ path entries, mediaPath base cut.video.id = .ok path ∧
    TracksResolved base index start duration 1 cut.audio entries ∧
    windows = ⟨cut.video.id, path, .video, start, duration, index, 0⟩ :: entries.map (·.1) ∧
    inputs = {
      index := index
      duration := .int duration
      video := slot
      audio := (List.range (entries.length + 1)).map fun position => ((slot + position : Nat) : Int)
      offsets := 0 :: entries.map (·.2.1)
      volumes := cut.video.volume :: entries.map (·.2.2) }

/-- Cuts that stand from `index` on with their windows, numbered from `slot` on, and inputs. -/
inductive CutsResolved (base : Path) :
    Nat → Nat → List Cut → List Window → List CutInputs → Prop
  | nil {index slot : Nat} : CutsResolved base index slot [] [] []
  | cons {index slot : Nat} {cut : Cut} {start duration : Int} {windows : List Window}
      {inputs : CutInputs} {cuts : List Cut} {moreWindows : List Window}
      {moreInputs : List CutInputs} :
      CutResolved base index slot cut start duration windows inputs →
      CutsResolved base (index + 1) (slot + windows.length) cuts moreWindows moreInputs →
      CutsResolved base index slot (cut :: cuts) (windows ++ moreWindows) (inputs :: moreInputs)

/-! ## The steps of resolving -/

theorem mediaPath_eq_ok_iff {id : Value} {path : Path} :
    mediaPath base id = .ok path ↔
      ∃ name, id = .text name ∧ base.join (Path.ofString name) = path := by
  cases id <;> simp [mediaPath]

theorem graph_of_run_requireSource {index : Nat} {role : SourceRole} {id : Value}
    {result : Unit} (required : (requireSource existence base index role id).run draft =
      .ok result after) : after.graph = draft.graph := by
  unfold requireSource at required
  obtain ⟨_, noted, isNoted, required⟩ := run_bind_eq_ok_iff.mp required
  obtain ⟨_, _, asked, required⟩ := run_bind_eq_ok_iff.mp required
  obtain ⟨_, rfl⟩ := run_lift_eq_ok_iff.mp asked
  obtain ⟨_, rfl⟩ := run_refuse_pure_eq_ok_iff.mp required
  exact graph_of_run_noteCheck isNoted

theorem trackResolved_of_run {index number : Nat} {start duration : Int} {track : AudioTrack}
    {entry : Window × Int × Value}
    (resolved : (resolveTrack existence base index start duration number track).run draft =
      .ok entry after) :
    TrackResolved base index start duration number track entry ∧ after.graph = draft.graph := by
  unfold resolveTrack at resolved
  obtain ⟨_, resolved⟩ := run_refuse_eq_ok_iff.mp resolved
  obtain ⟨_, _, compared, resolved⟩ := run_bind_eq_ok_iff.mp resolved
  obtain ⟨_, rfl⟩ := run_lift_defect_eq_ok_iff.mp compared
  obtain ⟨_, resolved⟩ := run_refuse_eq_ok_iff.mp resolved
  obtain ⟨_, required, isRequired, resolved⟩ := run_bind_eq_ok_iff.mp resolved
  have kept := graph_of_run_requireSource isRequired
  -- The offset is read in one of two branches; both go on with the shift of the track.
  obtain ⟨offset, shift, resolved⟩ : ∃ offset, track.shift = .ok offset ∧
      (if duration - offset ≤ 0 then
        throw (.naming track.id (.edit (.cut index (.offsetTooLong track.id)))) >>= fun _ => do
          let path ← mediaPath base track.id
          return (⟨track.id, path, .audio, start, duration - offset, index, number⟩, offset,
            track.volume)
      else do
        let path ← mediaPath base track.id
        return (⟨track.id, path, .audio, start, duration - offset, index, number⟩, offset,
          track.volume) : Drafting (Window × Int × Value)).run required = .ok entry after := by
    unfold AudioTrack.shift
    split at resolved
    · next given =>
      obtain ⟨offset, _, reading, resolved⟩ := run_bind_eq_ok_iff.mp resolved
      obtain ⟨read, rfl⟩ := run_lift_eq_ok_iff.mp reading
      exact ⟨offset, by rw [if_pos given, read], resolved⟩
    · next absent => exact ⟨0, by rw [if_neg absent], resolved⟩
  obtain ⟨remains, resolved⟩ := run_refuse_eq_ok_iff.mp resolved
  obtain ⟨path, _, naming, resolved⟩ := run_bind_eq_ok_iff.mp resolved
  obtain ⟨named, rfl⟩ := run_lift_defect_eq_ok_iff.mp naming
  obtain ⟨rfl, rfl⟩ := run_pure_eq_ok_iff.mp resolved
  exact ⟨⟨shift, rfl, named, rfl, Int.not_le.mp remains⟩, kept⟩

theorem tracksResolved_of_run {index number : Nat} {start duration : Int}
    {tracks : List AudioTrack} {entries : List (Window × Int × Value)}
    (resolved : (resolveTracks existence base index start duration number tracks).run draft =
      .ok entries after) :
    TracksResolved base index start duration number tracks entries ∧
      after.graph = draft.graph := by
  induction tracks generalizing number draft entries with
  | nil =>
    obtain ⟨rfl, rfl⟩ := run_pure_eq_ok_iff.mp resolved
    exact ⟨.nil, rfl⟩
  | cons track tracks ih =>
    unfold resolveTracks at resolved
    obtain ⟨entry, _, one, resolved⟩ := run_bind_eq_ok_iff.mp resolved
    obtain ⟨others, _, more, resolved⟩ := run_bind_eq_ok_iff.mp resolved
    obtain ⟨rfl, rfl⟩ := run_pure_eq_ok_iff.mp resolved
    obtain ⟨head, keptByOne⟩ := trackResolved_of_run one
    obtain ⟨tail, keptByMore⟩ := ih more
    exact ⟨.cons head tail, keptByMore.trans keptByOne⟩

theorem cutResolved_of_run {index slot : Nat} {cut : Cut} {windows : List Window}
    {inputs : CutInputs}
    (resolved : (resolveCut existence base index slot cut).run draft =
      .ok (windows, inputs) after) :
    (∃ start duration, CutResolved base index slot cut start duration windows inputs) ∧
      after.graph = draft.graph := by
  unfold resolveCut at resolved
  obtain ⟨_, resolved⟩ := run_refuse_eq_ok_iff.mp resolved
  obtain ⟨start, _, reading, resolved⟩ := run_bind_eq_ok_iff.mp resolved
  obtain ⟨starts, rfl⟩ := run_lift_eq_ok_iff.mp reading
  obtain ⟨finish, _, reading, resolved⟩ := run_bind_eq_ok_iff.mp resolved
  obtain ⟨ends, rfl⟩ := run_lift_eq_ok_iff.mp reading
  obtain ⟨lasts, resolved⟩ := run_refuse_eq_ok_iff.mp resolved
  obtain ⟨_, _, compared, resolved⟩ := run_bind_eq_ok_iff.mp resolved
  obtain ⟨_, rfl⟩ := run_lift_defect_eq_ok_iff.mp compared
  obtain ⟨_, resolved⟩ := run_refuse_eq_ok_iff.mp resolved
  obtain ⟨_, _, isRequired, resolved⟩ := run_bind_eq_ok_iff.mp resolved
  have keptByRequire := graph_of_run_requireSource isRequired
  obtain ⟨path, _, naming, resolved⟩ := run_bind_eq_ok_iff.mp resolved
  obtain ⟨named, rfl⟩ := run_lift_defect_eq_ok_iff.mp naming
  obtain ⟨entries, _, tracks, resolved⟩ := run_bind_eq_ok_iff.mp resolved
  obtain ⟨tracks, keptByTracks⟩ := tracksResolved_of_run tracks
  obtain ⟨_, _, reported, resolved⟩ := run_bind_eq_ok_iff.mp resolved
  have keptByReport := graph_of_run_report reported
  obtain ⟨same, rfl⟩ := run_pure_eq_ok_iff.mp resolved
  obtain ⟨rfl, rfl⟩ := Prod.mk.inj same
  refine ⟨⟨start, finish - start, starts, ?_, Int.not_le.mp lasts, path, entries, named, tracks,
    rfl, rfl⟩, keptByReport.trans (keptByTracks.trans keptByRequire)⟩
  rw [ends, Int.add_comm, Int.sub_add_cancel]

/-- Resolving cuts gives their windows and inputs, and leaves the graph as it is. -/
theorem cutsResolved_of_run {index slot : Nat} {cuts : List Cut} {windows : List Window}
    {inputs : List CutInputs}
    (resolved : (resolveCuts existence base index slot cuts).run draft =
      .ok (windows, inputs) after) :
    CutsResolved base index slot cuts windows inputs ∧ after.graph = draft.graph := by
  induction cuts generalizing index slot draft windows inputs with
  | nil =>
    obtain ⟨same, rfl⟩ := run_pure_eq_ok_iff.mp resolved
    obtain ⟨rfl, rfl⟩ := Prod.mk.inj same
    exact ⟨.nil, rfl⟩
  | cons cut cuts ih =>
    unfold resolveCuts at resolved
    obtain ⟨⟨own, ownInputs⟩, _, one, resolved⟩ := run_bind_eq_ok_iff.mp resolved
    obtain ⟨⟨moreWindows, moreInputs⟩, _, more, resolved⟩ := run_bind_eq_ok_iff.mp resolved
    obtain ⟨same, rfl⟩ := run_pure_eq_ok_iff.mp resolved
    obtain ⟨rfl, rfl⟩ := Prod.mk.inj same
    obtain ⟨⟨_, _, head⟩, keptByOne⟩ := cutResolved_of_run one
    obtain ⟨tail, keptByMore⟩ := ih more
    exact ⟨.cons head tail, keptByMore.trans keptByOne⟩

theorem projectResolved_of_run {project : Project} {windows : List Window}
    {inputs : List CutInputs}
    (resolved : (resolve existence project).run draft = .ok (windows, inputs) after) :
    CutsResolved project.base 0 0 project.cuts windows inputs ∧ after.graph = draft.graph := by
  unfold resolve at resolved
  obtain ⟨⟨_, _⟩, _, cuts, resolved⟩ := run_bind_eq_ok_iff.mp resolved
  obtain ⟨_, _, reported, resolved⟩ := run_bind_eq_ok_iff.mp resolved
  obtain ⟨same, rfl⟩ := run_pure_eq_ok_iff.mp resolved
  obtain ⟨rfl, rfl⟩ := Prod.mk.inj same
  obtain ⟨all, kept⟩ := cutsResolved_of_run cuts
  exact ⟨all, (graph_of_run_report reported).trans kept⟩

/-! ## The windows of one cut among all -/

theorem TracksResolved.length_eq {index number : Nat} {start duration : Int}
    {tracks : List AudioTrack} {entries : List (Window × Int × Value)}
    (resolved : TracksResolved base index start duration number tracks entries) :
    entries.length = tracks.length := by
  induction resolved with
  | nil => rfl
  | cons _ _ ih => simp [ih]

theorem TracksResolved.entry {index number position : Nat} {start duration : Int}
    {tracks : List AudioTrack} {entries : List (Window × Int × Value)} {track : AudioTrack}
    (resolved : TracksResolved base index start duration number tracks entries)
    (present : tracks[position]? = some track) :
    ∃ entry, entries[position]? = some entry ∧
      TrackResolved base index start duration (number + position) track entry := by
  induction resolved generalizing position with
  | nil => simp at present
  | @cons number head entry _ _ first _ ih =>
    cases position with
    | zero =>
      obtain rfl : head = track := by simpa using present
      exact ⟨entry, rfl, first⟩
    | succ position =>
      obtain ⟨later, found, isLater⟩ := ih (by simpa using present)
      refine ⟨later, by simpa using found, ?_⟩
      rwa [Nat.add_assoc, Nat.add_comm 1] at isLater

theorem TracksResolved.kind {index number : Nat} {start duration : Int}
    {tracks : List AudioTrack} {entries : List (Window × Int × Value)}
    (resolved : TracksResolved base index start duration number tracks entries) :
    ∀ entry ∈ entries, entry.1.kind = .audio := by
  induction resolved with
  | nil => simp
  | cons first _ ih =>
    intro entry present
    rcases List.mem_cons.mp present with rfl | later
    · rw [first.window]
    · exact ih entry later

/-- A sound of a cut has the slot of its place, a window that is as much shorter than the cut as
the sound is shifted, and the shift that the cut asks for. -/
theorem CutResolved.sound {index slot position : Nat} {cut : Cut} {start duration : Int}
    {windows : List Window} {inputs : CutInputs}
    (resolved : CutResolved base index slot cut start duration windows inputs)
    (within : position ≤ cut.audio.length) :
    ∃ window offset volume, windows[position]? = some window ∧ window.start = start ∧
      window.duration = duration - offset ∧ 0 < window.duration ∧
      cut.shifts[position]? = some (.ok offset) ∧
      inputs.audio[position]? = some ((slot + position : Nat) : Int) ∧
      inputs.offsets[position]? = some offset ∧ inputs.volumes[position]? = some volume := by
  obtain ⟨path, entries, _, tracks, rfl, rfl⟩ := resolved.rest
  have count := tracks.length_eq
  have slotAt : ((List.range (entries.length + 1)).map fun place => ((slot + place : Nat) : Int))[
      position]? = some ((slot + position : Nat) : Int) := by
    rw [List.getElem?_map, List.getElem?_range (by omega)]
    rfl
  cases position with
  | zero =>
    refine ⟨_, 0, cut.video.volume, rfl, rfl, ?_, resolved.lasts, rfl, slotAt, rfl, rfl⟩
    exact (Int.sub_zero duration).symm
  | succ position =>
    have trackAt : cut.audio[position]? = some cut.audio[position] := List.getElem?_eq_getElem _
    obtain ⟨entry, entryAt, track⟩ := tracks.entry trackAt
    refine ⟨entry.1, entry.2.1, entry.2.2, by simp [entryAt], by rw [track.window],
      by rw [track.window], by rw [track.window]; exact track.remains, ?_, slotAt,
      by simp [entryAt], by simp [entryAt]⟩
    simp [Cut.shifts, trackAt, track.shift]

/-- The window of each sound of a cut reads the file of its id, from the start of the cut on. -/
theorem CutResolved.source {index slot position : Nat} {cut : Cut} {start duration : Int}
    {windows : List Window} {inputs : CutInputs}
    (resolved : CutResolved base index slot cut start duration windows inputs) {id : Value}
    (present : cut.sources[position]? = some id) :
    ∃ window name, windows[position]? = some window ∧ window.start = start ∧ id = .text name ∧
      base.join (Path.ofString name) = window.path := by
  obtain ⟨path, entries, named, tracks, rfl, -⟩ := resolved.rest
  cases position with
  | zero =>
    obtain rfl := Option.some.inj present
    obtain ⟨name, isText, joined⟩ := mediaPath_eq_ok_iff.mp named
    exact ⟨_, name, rfl, rfl, isText, joined⟩
  | succ position =>
    rw [Cut.sources, List.getElem?_cons_succ, List.getElem?_map] at present
    obtain ⟨track, trackAt, rfl⟩ := Option.map_eq_some_iff.mp present
    obtain ⟨entry, entryAt, isTrack⟩ := tracks.entry trackAt
    obtain ⟨name, isText, joined⟩ := mediaPath_eq_ok_iff.mp isTrack.path
    refine ⟨entry.1, name, by simp [entryAt], ?_, isText, joined⟩
    rw [isTrack.window]

theorem CutResolved.index_eq {index slot : Nat} {cut : Cut} {start duration : Int}
    {windows : List Window} {inputs : CutInputs}
    (resolved : CutResolved base index slot cut start duration windows inputs) :
    inputs.index = index := by
  obtain ⟨_, _, _, _, _, rfl⟩ := resolved.rest
  rfl

theorem CutResolved.soundCount {index slot : Nat} {cut : Cut} {start duration : Int}
    {windows : List Window} {inputs : CutInputs}
    (resolved : CutResolved base index slot cut start duration windows inputs) :
    inputs.audio.length = cut.audio.length + 1 := by
  obtain ⟨_, entries, _, tracks, _, rfl⟩ := resolved.rest
  simp [tracks.length_eq]

theorem CutsResolved.length_eq {index slot : Nat} {cuts : List Cut} {windows : List Window}
    {inputs : List CutInputs} (resolved : CutsResolved base index slot cuts windows inputs) :
    inputs.length = cuts.length := by
  induction resolved with
  | nil => rfl
  | cons _ _ ih => simp [ih]

/-- Every cut lasts for a positive count of seconds. -/
theorem CutsResolved.durations_eq {index slot : Nat} {cuts : List Cut} {windows : List Window}
    {inputs : List CutInputs} (resolved : CutsResolved base index slot cuts windows inputs) :
    ∃ lengths : List Int, inputs.map (·.duration) = lengths.map Value.int ∧
      ∀ length ∈ lengths, 0 < length := by
  induction resolved with
  | nil => exact ⟨[], rfl, by simp⟩
  | @cons _ _ _ _ duration _ _ _ _ _ first _ ih =>
    obtain ⟨lengths, durations, positive⟩ := ih
    obtain ⟨_, _, _, _, _, rfl⟩ := first.rest
    exact ⟨duration :: lengths, by rw [List.map_cons, List.map_cons, durations],
      List.forall_mem_cons.mpr ⟨first.lasts, positive⟩⟩

/-- The windows of a cut stand together among all windows, from the slot that its inputs name. -/
theorem CutsResolved.locate {index slot position : Nat} {cuts : List Cut} {windows : List Window}
    {inputs : List CutInputs} {cut : Cut}
    (resolved : CutsResolved base index slot cuts windows inputs)
    (present : cuts[position]? = some cut) :
    ∃ earlier own ownInputs start duration, inputs[position]? = some ownInputs ∧
      CutResolved base (index + position) (slot + earlier) cut start duration own ownInputs ∧
      ∀ (place : Nat) window, own[place]? = some window →
        windows[earlier + place]? = some window := by
  induction resolved generalizing position with
  | nil => simp at present
  | @cons index slot head start duration own ownInputs _ moreWindows _ first _ ih =>
    cases position with
    | zero =>
      obtain rfl : head = cut := by simpa using present
      -- The windows of the first cut stand first.
      refine ⟨0, own, ownInputs, start, duration, rfl, first, fun place window found => ?_⟩
      have within : place < own.length := (List.getElem?_eq_some_iff.mp found).1
      rw [Nat.zero_add, List.getElem?_append_left within, found]
    | succ position =>
      obtain ⟨earlier, found, foundInputs, start, duration, foundAt, isFound, windowAt⟩ :=
        ih (by simpa using present)
      -- Those of the others stand behind all windows of the first cut.
      refine ⟨own.length + earlier, found, foundInputs, start, duration, by simpa using foundAt,
        ?_, fun place window inFound => ?_⟩
      · rwa [Nat.add_assoc, Nat.add_comm 1, Nat.add_assoc] at isFound
      · rw [Nat.add_assoc, List.getElem?_append_right (Nat.le_add_right _ _),
          Nat.add_sub_cancel_left, windowAt place window inFound]

end CutInputs

end Montage
