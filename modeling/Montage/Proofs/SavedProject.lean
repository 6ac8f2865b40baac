import Montage.Compile.Compilation
import Montage.Proofs.Drafting

/-!
# Saved projects are read back

Reading a project fills in what is absent and drops what cannot be used. What it gives is settled:
filling it in once more changes nothing. Settled tracks, cuts, lengths and frame sizes are read
back from the values they are written as (`ofValue_toValue_of_settled`, for each of them), and
reading gives nothing else (`settled_of_ofValue`). Main statement: `read_saved_of_read`, that the
value a read project is saved as is read back as the same edit list, which compiles in the same
way.
-/

namespace Montage

/-! ## Values that are filled in -/

namespace Value

/-- A value that was filled in is kept when it is filled in again. -/
theorem orElse_orElse (value other : Value) :
    (value.orElse other).orElse other = value.orElse other := by
  cases present : value.isPresent with
  | true => simp [orElse, present]
  | false => simp [orElse, present]

theorem member_cons_self (name : String) (value : Value) (rest : List (String × Value)) :
    member (.object ((name, value) :: rest)) name = .ok value := by
  simp [member, lookup]

theorem member_cons_of_ne {name other : String} (differ : other ≠ name) (value : Value)
    (rest : List (String × Value)) :
    member (.object ((other, value) :: rest)) name = member (.object rest) name := by
  simp [member, lookup, differ]

theorem member_nil (name : String) : member (.object []) name = .ok .null := rfl

end Value

theorem volumeOf_volumeOf (volume : Value) : volumeOf (volumeOf volume) = volumeOf volume := by
  cases volume <;> rfl

/-! ## Tracks -/

namespace AudioTrack

/-- A track that gives everything: an id that is empty text if it counts as absent, a volume, and
an offset that is zero if it counts as absent. -/
structure Settled (track : AudioTrack) : Prop where
  id : track.id.orElse (.text "") = track.id
  volume : volumeOf track.volume = track.volume
  offset : track.offset.orElse (.int 0) = track.offset

theorem settled_of_ofValue {value : Value} {track : AudioTrack} (read : ofValue value = .ok track) :
    track.Settled := by
  obtain ⟨volume, _, read⟩ := except_bind_eq_ok_iff.mp read
  obtain ⟨id, _, read⟩ := except_bind_eq_ok_iff.mp read
  obtain ⟨offset, _, read⟩ := except_bind_eq_ok_iff.mp read
  obtain rfl := except_pure_eq_ok_iff.mp read
  exact ⟨Value.orElse_orElse id _, volumeOf_volumeOf volume, Value.orElse_orElse offset _⟩

theorem ofValue_toValue_of_settled {track : AudioTrack} (settled : track.Settled) :
    ofValue track.toValue = .ok track := by
  have id : track.toValue.member "id" = .ok track.id := Value.member_cons_self ..
  have volume : track.toValue.member "volume" = .ok track.volume :=
    (Value.member_cons_of_ne (by decide) ..).trans (Value.member_cons_self ..)
  -- An offset that is not written is zero, which is what its absence stands for.
  obtain ⟨offset, offsetRead, offsetKept⟩ : ∃ offset, track.toValue.member "offset" = .ok offset ∧
      offset.orElse (.int 0) = track.offset := by
    unfold toValue
    rw [List.cons_append, List.cons_append, List.nil_append,
      Value.member_cons_of_ne (by decide), Value.member_cons_of_ne (by decide)]
    split
    · exact ⟨track.offset, Value.member_cons_self .., settled.offset⟩
    · next absent =>
      exact ⟨.null, Value.member_nil _, (if_neg absent).symm.trans settled.offset⟩
  unfold ofValue
  rw [volume, id, offsetRead]
  show Except.ok (⟨track.id.orElse _, volumeOf track.volume, offset.orElse _⟩ : AudioTrack) = _
  rw [settled.id, settled.volume, offsetKept]

end AudioTrack

/-! ## Cuts -/

namespace Cut

structure Settled (cut : Cut) : Prop where
  id : cut.video.id.orElse (.text "") = cut.video.id
  volume : volumeOf cut.video.volume = cut.video.volume
  audio : ∀ track ∈ cut.audio, track.Settled

theorem settled_of_tracksOf {values : List Value} {tracks : List AudioTrack}
    (read : tracksOf values = .ok tracks) : ∀ track ∈ tracks, track.Settled := by
  intro track present
  obtain ⟨value, _, given⟩ := except_exists_of_mem_mapM read present
  exact AudioTrack.settled_of_ofValue given

theorem tracksOf_toValue {tracks : List AudioTrack} (settled : ∀ track ∈ tracks, track.Settled) :
    tracksOf (tracks.map AudioTrack.toValue) = .ok tracks := by
  unfold tracksOf
  rw [List.filter_eq_self.mpr, except_mapM_eq_ok_iff, List.forall₂_map_left_iff, List.forall₂_same]
  · exact fun track present => AudioTrack.ofValue_toValue_of_settled (settled track present)
  · intro value present
    obtain ⟨track, _, rfl⟩ := List.mem_map.mp present
    rfl

theorem settled_of_ofValue {value : Value} {cut : Cut} (read : ofValue value = .ok cut) :
    cut.Settled := by
  obtain ⟨video, _, read⟩ := except_bind_eq_ok_iff.mp read
  obtain ⟨volume, _, read⟩ := except_bind_eq_ok_iff.mp read
  obtain ⟨audio, _, read⟩ := except_bind_eq_ok_iff.mp read
  obtain ⟨id, _, read⟩ := except_bind_eq_ok_iff.mp read
  obtain ⟨start, _, read⟩ := except_bind_eq_ok_iff.mp read
  obtain ⟨finish, _, read⟩ := except_bind_eq_ok_iff.mp read
  -- The tracks come from a list, or there are none.
  obtain ⟨tracks, settled, same⟩ : ∃ tracks : List AudioTrack,
      (∀ track ∈ tracks, track.Settled) ∧
      (⟨⟨id.orElse (.text ""), volumeOf volume⟩, start, finish, tracks⟩ : Cut) = cut := by
    dsimp only at read
    split at read
    · obtain ⟨tracks, tracksRead, read⟩ := except_bind_eq_ok_iff.mp read
      exact ⟨tracks, settled_of_tracksOf tracksRead, except_pure_eq_ok_iff.mp read⟩
    · obtain ⟨_, none, read⟩ := except_bind_eq_ok_iff.mp read
      obtain rfl := except_pure_eq_ok_iff.mp none
      exact ⟨[], List.forall_mem_nil _, except_pure_eq_ok_iff.mp read⟩
  obtain rfl := same
  exact ⟨Value.orElse_orElse id _, volumeOf_volumeOf volume, settled⟩

theorem ofValue_toValue_of_settled {cut : Cut} (settled : cut.Settled) :
    ofValue cut.toValue = .ok cut := by
  have written : (Cut.ofValue cut.toValue) = tracksOf (cut.audio.map AudioTrack.toValue) >>=
      fun tracks => .ok ⟨⟨cut.video.id.orElse (.text ""), volumeOf cut.video.volume⟩, cut.start,
        cut.finish, tracks⟩ := rfl
  rw [written, tracksOf_toValue settled.audio, settled.id, settled.volume]
  rfl

end Cut

/-! ## Fades and frame sizes -/

namespace FadeLengths

/-- Lengths that are all given; zero stands for those that count as absent. -/
structure Settled (lengths : FadeLengths) : Prop where
  fadeIn : lengths.fadeIn.orElse (.int 0) = lengths.fadeIn
  fadeOut : lengths.fadeOut.orElse (.int 0) = lengths.fadeOut
  crossfade : lengths.crossfade.orElse (.int 0) = lengths.crossfade

theorem settled_of_ofValue {value : Value} {lengths : FadeLengths}
    (read : ofValue value = .ok lengths) : lengths.Settled := by
  obtain ⟨fadeIn, _, read⟩ := except_bind_eq_ok_iff.mp read
  obtain ⟨fadeOut, _, read⟩ := except_bind_eq_ok_iff.mp read
  obtain ⟨crossfade, _, read⟩ := except_bind_eq_ok_iff.mp read
  obtain rfl := except_pure_eq_ok_iff.mp read
  exact ⟨Value.orElse_orElse fadeIn _, Value.orElse_orElse fadeOut _,
    Value.orElse_orElse crossfade _⟩

theorem ofValue_toValue_of_settled {lengths : FadeLengths} (settled : lengths.Settled) :
    ofValue lengths.toValue = .ok lengths := by
  have written : ofValue lengths.toValue = .ok ⟨lengths.fadeIn.orElse (.int 0),
      lengths.fadeOut.orElse (.int 0), lengths.crossfade.orElse (.int 0)⟩ := rfl
  rw [written, settled.fadeIn, settled.fadeOut, settled.crossfade]

end FadeLengths

namespace FrameSize

/-- A size that is read has positive sides. -/
theorem pos_of_ofValue {value : Value} {size : FrameSize} (read : ofValue value = .ok (some size)) :
    0 < size.width ∧ 0 < size.height := by
  unfold ofValue at read
  split at read
  · cases read
  · split at read
    · exact absurd read refuse_ne_ok
    · split at read
      · cases read
      · exact absurd read refuse_ne_ok
      · split at read
        · exact absurd read refuse_ne_ok
        · next large =>
          cases read
          exact ⟨by omega, by omega⟩

end FrameSize

/-! ## Projects -/

namespace Project

/-- The cuts that a value lists; one that is no list has none. -/
def cutsOf : Value → Except Failure (List Cut)
  | .list values => liftM (values.mapM Cut.ofValue)
  | _ => .ok []

/-- The sides of the frame size that a value names, if it names one. -/
def frameOf (value : Value) : Except Failure (List Value) := do
  return ((← FrameSize.ofValue value).map FrameSize.sides).getD []

theorem ofValue_eq (value : Value) (base : Path) :
    ofValue value base = (do
      let cuts ← cutsOf (← value.member "cuts")
      let fade ← FadeLengths.ofValue (← value.member "fade_duration")
      let frame ← frameOf (← value.member "resolution")
      return ⟨cuts, fade, frame, base, ← value.member "directory", ← value.member "id"⟩) := by
  have frames (named : Value) (rest : List Value → Except Failure Project) :
      (FrameSize.ofValue named >>= fun size => rest ((size.map FrameSize.sides).getD [])) =
        frameOf named >>= rest := by
    simp only [frameOf, bind_assoc, pure_bind]
  unfold ofValue
  simp only [← frames]
  cases value.member "cuts" with
  | error defect => rfl
  | ok cutValues => cases cutValues <;> rfl

/-- An edit list of which all but the frame size is read as that of a project. -/
structure Parts (value : Value) (project : Project) : Prop where
  cuts : ∃ given, value.member "cuts" = .ok given ∧ cutsOf given = .ok project.cuts
  fade : ∃ given, value.member "fade_duration" = .ok given ∧
    FadeLengths.ofValue given = .ok project.fade
  directory : value.member "directory" = .ok project.directory
  episode : value.member "id" = .ok project.episode

theorem ofValue_of_parts {value named : Value} {project : Project} (parts : Parts value project)
    (found : value.member "resolution" = .ok named) :
    ofValue value project.base =
      (frameOf named).map fun frame => { project with frame := frame } := by
  obtain ⟨cutValues, cutsGiven, cuts⟩ := parts.cuts
  obtain ⟨lengths, lengthsGiven, fade⟩ := parts.fade
  rw [ofValue_eq, cutsGiven, lengthsGiven, found, parts.directory, parts.episode]
  show (do
    let cuts ← cutsOf cutValues
    let fade ← liftM (FadeLengths.ofValue lengths)
    let frame ← frameOf named
    return ⟨cuts, fade, frame, project.base, project.directory, project.episode⟩ :
      Except Failure Project) = _
  rw [cuts, fade]
  cases frameOf named <;> rfl

theorem parts_of_ofValue {value : Value} {base : Path} {project : Project}
    (read : ofValue value base = .ok project) :
    Parts value project ∧ project.base = base ∧
      ∃ named, value.member "resolution" = .ok named ∧ frameOf named = .ok project.frame := by
  rw [ofValue_eq] at read
  obtain ⟨cutValues, cutsGiven, read⟩ := except_bind_eq_ok_iff.mp read
  obtain ⟨cuts, cutsRead, read⟩ := except_bind_eq_ok_iff.mp read
  obtain ⟨lengths, lengthsGiven, read⟩ := except_bind_eq_ok_iff.mp read
  obtain ⟨fade, fadeRead, read⟩ := except_bind_eq_ok_iff.mp read
  obtain ⟨named, namedGiven, read⟩ := except_bind_eq_ok_iff.mp read
  obtain ⟨frame, frameRead, read⟩ := except_bind_eq_ok_iff.mp read
  obtain ⟨directory, directoryGiven, read⟩ := except_bind_eq_ok_iff.mp read
  obtain ⟨episode, episodeGiven, read⟩ := except_bind_eq_ok_iff.mp read
  obtain rfl := except_pure_eq_ok_iff.mp read
  rw [liftM_defect_eq_ok_iff] at cutsGiven lengthsGiven fadeRead
  rw [liftM_defect_eq_ok_iff] at namedGiven directoryGiven episodeGiven
  exact ⟨⟨⟨cutValues, cutsGiven, cutsRead⟩, ⟨lengths, lengthsGiven, fadeRead⟩, directoryGiven,
    episodeGiven⟩, rfl, named, namedGiven, frameRead⟩

structure Settled (project : Project) : Prop where
  cuts : ∀ cut ∈ project.cuts, cut.Settled
  fade : project.fade.Settled
  frame : project.frame = [] ∨ ∃ size : FrameSize, 0 < size.width ∧ 0 < size.height ∧
    project.frame = size.sides

theorem settled_of_cutsOf {value : Value} {cuts : List Cut} (read : cutsOf value = .ok cuts) :
    ∀ cut ∈ cuts, cut.Settled := by
  unfold cutsOf at read
  split at read
  · rw [liftM_defect_eq_ok_iff] at read
    intro cut present
    obtain ⟨value, _, given⟩ := except_exists_of_mem_mapM read present
    exact Cut.settled_of_ofValue given
  · cases read
    exact List.forall_mem_nil _

theorem cutsOf_toValue {cuts : List Cut} (settled : ∀ cut ∈ cuts, cut.Settled) :
    cutsOf (.list (cuts.map Cut.toValue)) = .ok cuts := by
  show liftM ((cuts.map Cut.toValue).mapM Cut.ofValue) = _
  rw [liftM_defect_eq_ok_iff, except_mapM_eq_ok_iff, List.forall₂_map_left_iff, List.forall₂_same]
  exact fun cut present => Cut.ofValue_toValue_of_settled (settled cut present)

theorem settled_of_ofValue {value : Value} {base : Path} {project : Project}
    (read : ofValue value base = .ok project) : project.Settled ∧ project.base = base := by
  obtain ⟨parts, same, named, -, frameRead⟩ := parts_of_ofValue read
  obtain ⟨_, -, cutsRead⟩ := parts.cuts
  obtain ⟨_, -, fadeRead⟩ := parts.fade
  refine ⟨⟨settled_of_cutsOf cutsRead, FadeLengths.settled_of_ofValue fadeRead, ?_⟩, same⟩
  obtain ⟨size, sizeRead, frame⟩ := except_bind_eq_ok_iff.mp frameRead
  rw [← except_pure_eq_ok_iff.mp frame]
  cases size with
  | none => exact .inl rfl
  | some found =>
    obtain ⟨width, height⟩ := FrameSize.pos_of_ofValue sizeRead
    exact .inr ⟨found, width, height, rfl⟩

/-- The members of a saved project but for the frame size, which is written only if there is
one. -/
theorem toValue_eq (project : Project) :
    project.toValue = .object (("cuts", .list (project.cuts.map Cut.toValue)) ::
      ("fade_duration", project.fade.toValue) ::
      if project.frame.isEmpty then [] else [("resolution", .list project.frame)]) :=
  rfl

/-- The place where a project was found is not saved. -/
theorem member_toValue_eq_null (project : Project) {name : String}
    (other : name ∉ ["cuts", "fade_duration", "resolution"]) :
    project.toValue.member name = .ok .null := by
  simp only [List.mem_cons, List.not_mem_nil, or_false, not_or] at other
  obtain ⟨cuts, fade, frame⟩ := other
  rw [toValue_eq, Value.member_cons_of_ne (Ne.symm cuts), Value.member_cons_of_ne (Ne.symm fade)]
  split
  · rfl
  · rw [Value.member_cons_of_ne (Ne.symm frame), Value.member_nil]

theorem frameOf_toValue {project : Project} (settled : project.Settled) :
    ∃ named, project.toValue.member "resolution" = .ok named ∧
      frameOf named = .ok project.frame := by
  rw [toValue_eq, Value.member_cons_of_ne (by decide), Value.member_cons_of_ne (by decide)]
  rcases settled.frame with none | ⟨size, width, height, sides⟩
  · rw [none]
    exact ⟨.null, rfl, rfl⟩
  · rw [sides]
    refine ⟨size.toValue, rfl, ?_⟩
    rw [frameOf, FrameSize.ofValue_toValue width height]
    rfl

/-- A settled project is read back, except for the place where it was found. -/
theorem ofValue_toValue_of_settled {project : Project} (settled : project.Settled) :
    ofValue project.toValue project.base =
      .ok { project with directory := .null, episode := .null } := by
  have cuts : project.toValue.member "cuts" = .ok (.list (project.cuts.map Cut.toValue)) :=
    Value.member_cons_self ..
  have fade : project.toValue.member "fade_duration" = .ok project.fade.toValue :=
    (Value.member_cons_of_ne (by decide) ..).trans (Value.member_cons_self ..)
  obtain ⟨named, resolution, frame⟩ := frameOf_toValue settled
  have parts : Parts project.toValue { project with directory := .null, episode := .null } :=
    ⟨⟨_, cuts, cutsOf_toValue settled.cuts⟩,
      ⟨_, fade, FadeLengths.ofValue_toValue_of_settled settled.fade⟩,
      member_toValue_eq_null project (by decide), member_toValue_eq_null project (by decide)⟩
  rw [ofValue_of_parts parts resolution, frame]
  rfl

/-- Whatever is read as a project, its saved value is read as well and gives the same cuts, fades
and frame size: it is saved as the same value, and it compiles to the same graph or fails in the
same way. -/
theorem read_saved_of_read {value : Value} {base : Path} {project : Project}
    (read : ofValue value base = .ok project) :
    ∃ again, ofValue project.toValue base = .ok again ∧ again.cuts = project.cuts ∧
      again.fade = project.fade ∧ again.frame = project.frame ∧ again.base = project.base ∧
      again.toValue = project.toValue ∧
      ∀ existence transition, Compilation.build existence transition again =
        Compilation.build existence transition project := by
  obtain ⟨settled, rfl⟩ := settled_of_ofValue read
  refine ⟨{ project with directory := .null, episode := .null },
    ofValue_toValue_of_settled settled, rfl, rfl, rfl, rfl, rfl, ?_⟩
  intro existence transition
  -- The place where the project was found has no part in its graph.
  rfl

/-- An edit list with much to fill in: a null volume, an offset that is false, tracks that are no
objects, lengths that are missing, and a frame size as text. -/
def looseDocument : Value :=
  .object [
    ("cuts", .list [.object [
      ("video", .object [("id", .text "day"), ("volume", .null)]),
      ("start", .null),
      ("audio", .list [.null, .object [("offset", .bool false), ("volume", .int 0)]])]]),
    ("fade_duration", .object [("in", .text ""), ("crossfade", .real .nan)]),
    ("resolution", .text "1920X1080"),
    ("id", .text "pilot")]

/-- What is read of the edit list with much to fill in. -/
def looseProject : Project where
  cuts := [⟨⟨.text "day", defaultVolume⟩, .null, .text "", [⟨.text "", .int 0, .int 0⟩]⟩]
  fade := ⟨.int 0, .int 0, .real .nan⟩
  frame := [.int 1920, .int 1080]
  episode := .text "pilot"

theorem read_saved_looseDocument : ofValue looseDocument ⟨0, []⟩ = .ok looseProject ∧
    ∃ again, ofValue looseProject.toValue ⟨0, []⟩ = .ok again ∧
      again.cuts = looseProject.cuts ∧ again.frame = looseProject.frame := by
  have read : ofValue looseDocument ⟨0, []⟩ = .ok looseProject := by decide +kernel
  obtain ⟨again, readAgain, cuts, _, frame, _⟩ := read_saved_of_read read
  exact ⟨read, again, readAgain, cuts, frame⟩

end Project

end Montage
