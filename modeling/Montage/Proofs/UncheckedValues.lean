import Montage.Proofs.LengthChecks
import Montage.Proofs.Resolution

/-!
# Values that no check stops

An edit list can hold any value in any place, and the checks of a build do not look at all of them.
A volume or an id of the wrong kind, and hours or numbers of too many digits, end the build in a
defect (`Unchecked`). So does a check whose message would name a number that is too long to be
written. Everything else that is wrong is told as a fault of the edit list. Main statements:
`explained_of_run_resolve` says that resolving the files of a project fails in no other way, and
`fit_of_run_resolveCuts` that cuts which are resolved have values of the right kinds only.
-/

namespace Montage

open Drafting

/-! ## What is not checked -/

/-- The volumes of a cut: that of its video, then those of its tracks. -/
def Cut.volumes (cut : Cut) : List Value :=
  cut.video.volume :: cut.audio.map (·.volume)

/-- The times that are read of a cut: its start, its end, and the offsets that count as given. -/
def Cut.times (cut : Cut) : List Value :=
  cut.start :: cut.finish :: (cut.audio.map (·.offset)).filter Value.isPresent

/-- The seconds that a cut lasts. -/
def Cut.length (cut : Cut) : Except Failure Int := do
  return (← Timecode.toSeconds cut.finish) - (← Timecode.toSeconds cut.start)

/-- The seconds that cuts of these lengths last together. -/
def Cut.together (lengths : List Int) : Int :=
  lengths.foldr (· + ·) 0

/-- A timecode with more digits of hours than can be read as a number. -/
def Timecode.LongHours (time : Value) : Prop :=
  ∃ text clock, time = .text text ∧
    clock? (Text.stripWhere Text.isBlank text.toList) = some (clock, []) ∧
    Text.maxDigits < clock.hours.length

/-- The values of an edit list that no check stops, each with the defect that a build meets in it:
what is no volume, what is no name of a file, and numbers that are too long to be read, to be
converted, to be written into the graph or to be named in the message of a check. -/
inductive Unchecked (project : Project) (graph : Graph) : Defect → Prop
  | volume {cut : Cut} {volume : Value} : cut ∈ project.cuts → volume ∈ cut.volumes →
      volume.number? = none → Unchecked project graph .wrongKind
  | id {cut : Cut} {id : Value} : cut ∈ project.cuts → id ∈ cut.sources → id.isPresent = true →
      (∀ name, id ≠ .text name) → Unchecked project graph .wrongKind
  /-- A fault of a file is told, but its id is too long for the message. -/
  | longId {cut : Cut} {id : Value} : cut ∈ project.cuts → id ∈ cut.sources → id.Overlong →
      Unchecked project graph .badValue
  | time {cut : Cut} {time : Value} : cut ∈ project.cuts → time ∈ cut.times →
      Timecode.LongHours time → Unchecked project graph .badValue
  /-- What is neither a number nor a text is refused as a time, but is too long for the message. -/
  | longTime {cut : Cut} {time : Value} : cut ∈ project.cuts → time ∈ cut.times →
      (∀ n, time ≠ .int n) → time.Overlong → Unchecked project graph .badValue
  /-- A fade length is refused, but is too long for the message. -/
  | longFade {length : Value} : length ∈ project.fade.lengths →
      Compilation.isLength length = false ∨ length.lt (.int 0) = .ok true → length.Overlong →
      Unchecked project graph .badValue
  /-- The cuts together last too long to be converted, as a real fade length asks for. -/
  | range {lengths : List Int} {x : Binary64} : project.cuts.mapM Cut.length = .ok lengths →
      project.fade.fadeOut = .real x ∨ project.fade.crossfade = .real x →
      Number.wholeToReal (Cut.together lengths) = .error .overflow →
      Unchecked project graph .overflow
  /-- The crossfades use up the length of all cuts, but either is too long for the message. -/
  | total {lengths : List Int} {total : Value} : project.cuts.mapM Cut.length = .ok lengths →
      Timeline.totalOf (lengths.map Value.int) project.fade.crossfade = .ok total →
      total.le (.int 0) = .ok true →
      project.fade.crossfade.Overlong ∨ Text.TooLong (Cut.together lengths) →
      Unchecked project graph .badValue
  | parameter {node : Node} {op : Op} {key : Option String} {value : Value} :
      node ∈ graph.nodes → op ∈ node.ops → (key, value) ∈ op.params → value.Overlong →
      Unchecked project graph .badValue

/-- A failure that is told of an edit list as such, or is the defect of an unchecked value. -/
inductive Explained (project : Project) (graph : Graph) : Failure → Prop
  | edit (cause : EditError) : Explained project graph (.edit cause)
  | defect {cause : Defect} : Unchecked project graph cause →
      Explained project graph (.defect cause)

/-- An existence check that always has an answer. -/
def ExistenceCheck.Answers (existence : ExistenceCheck) : Prop :=
  ∀ base id, ∃ found, existence base id = .ok found

variable {existence : ExistenceCheck} {base : Path} {project : Project} {graph : Graph}
  {draft after : Draft} {failure : Failure}

/-! ## Single values -/

theorem Value.lt_zero_eq_error {value : Value} {defect : Defect}
    (failed : value.lt (.int 0) = .error defect) :
    defect = .wrongKind ∧ value.number? = none := by
  unfold Value.lt Value.number at failed
  cases counted : value.number? with
  | none =>
    rw [counted] at failed
    cases failed
    exact ⟨rfl, rfl⟩
  | some x =>
    rw [counted] at failed
    cases failed

/-- A failure is told under its name, or the value that it names is too long. -/
theorem Explained.naming {value : Value} (told : Explained project graph failure)
    (long : value.Overlong → Unchecked project graph .badValue) :
    Explained project graph (.naming value failure) := by
  rcases Failure.naming_cases value failure with same | ⟨overlong, same⟩
  · rw [same]
    exact told
  · rw [same]
    exact .defect (long overlong)

theorem Timecode.toSeconds_eq_error {given : Value} (failed : toSeconds given = .error failure) :
    (∃ fault, failure = .edit (.time fault)) ∨ failure = .defect .badValue ∧
      (LongHours given ∨ (∀ n, given ≠ .int n) ∧ given.Overlong) := by
  cases given with
  | text text =>
    simp only [toSeconds, parse] at failed
    split at failed
    · next clock found =>
      split at failed
      · cases failed
        exact .inl ⟨_, rfl⟩
      · split at failed
        · cases failed
          exact .inl ⟨_, rfl⟩
        · split at failed
          · next long =>
            cases failed
            exact .inr ⟨rfl, .inl ⟨text, clock, rfl, found, long⟩⟩
          · cases failed
    · cases failed
      exact .inl ⟨_, rfl⟩
  | int seconds => cases failed
  | bool _ =>
    cases failed
    exact .inl ⟨_, rfl⟩
  | null | real _ | list _ | object _ =>
    cases failed
    rcases Failure.naming_cases _ (.edit (.time (.notText _))) with
      same | ⟨overlong, same⟩
    · exact .inl ⟨_, same⟩
    · exact .inr ⟨same, .inr ⟨nofun, overlong⟩⟩

theorem CutInputs.mediaPath_eq_error {id : Value} {defect : Defect}
    (failed : mediaPath base id = .error defect) :
    defect = .wrongKind ∧ ∀ name, id ≠ .text name := by
  cases id with
  | text name => cases failed
  | null | bool _ | int _ | real _ | list _ | object _ =>
    cases failed
    exact ⟨rfl, nofun⟩

/-! ## Resolving -/

namespace CutInputs

theorem explained_of_time {cut : Cut} {time : Value} (inProject : cut ∈ project.cuts)
    (inCut : time ∈ cut.times) (failed : Timecode.toSeconds time = .error failure) :
    Explained project graph failure := by
  rcases Timecode.toSeconds_eq_error failed with ⟨fault, rfl⟩ | ⟨rfl, long | ⟨noNumber, long⟩⟩
  · exact .edit (.time fault)
  · exact .defect (.time inProject inCut long)
  · exact .defect (.longTime inProject inCut noNumber long)

theorem explained_of_run_volume {cut : Cut} {volume : Value} (inProject : cut ∈ project.cuts)
    (inCut : volume ∈ cut.volumes)
    (failed : (liftM (volume.lt (.int 0)) : Drafting Bool).run draft = .error failure after) :
    Explained project graph failure := by
  obtain ⟨_, refused, rfl, _⟩ := run_lift_defect_eq_error_iff.mp failed
  obtain ⟨rfl, uncounted⟩ := Value.lt_zero_eq_error refused
  exact .defect (.volume inProject inCut uncounted)

theorem explained_of_run_mediaPath {cut : Cut} {id : Value} (inProject : cut ∈ project.cuts)
    (inCut : id ∈ cut.sources) (named : id.isPresent = true)
    (failed : (liftM (mediaPath base id) : Drafting Path).run draft = .error failure after) :
    Explained project graph failure := by
  obtain ⟨_, refused, rfl, _⟩ := run_lift_defect_eq_error_iff.mp failed
  obtain ⟨rfl, noText⟩ := mediaPath_eq_error refused
  exact .defect (.id inProject inCut named noText)

theorem explained_of_run_requireSource {index : Nat} {role : SourceRole} {cut : Cut} {id : Value}
    (answers : existence.Answers) (inProject : cut ∈ project.cuts) (inCut : id ∈ cut.sources)
    (failed : (requireSource existence base index role id).run draft = .error failure after) :
    Explained project graph failure := by
  unfold requireSource at failed
  rcases run_bind_eq_error_iff.mp failed with noted | ⟨_, _, _, failed⟩
  · cases noted
  rcases run_bind_eq_error_iff.mp failed with asked | ⟨_, _, _, failed⟩
  · obtain ⟨refused, _⟩ := run_lift_eq_error_iff.mp asked
    obtain ⟨_, answered⟩ := answers base id
    rw [answered] at refused
    cases refused
  · obtain ⟨_, rfl, _⟩ := run_refuse_pure_eq_error_iff.mp failed
    exact Explained.naming (.edit _) (.longId inProject inCut)

theorem explained_of_run_resolveTrack {index number : Nat} {start duration : Int} {cut : Cut}
    {track : AudioTrack} (answers : existence.Answers) (inProject : cut ∈ project.cuts)
    (inCut : track ∈ cut.audio)
    (failed : (resolveTrack existence base index start duration number track).run draft =
      .error failure after) : Explained project graph failure := by
  have listed : track.id ∈ cut.sources := List.mem_cons_of_mem _ (List.mem_map_of_mem inCut)
  unfold resolveTrack at failed
  rcases run_refuse_eq_error_iff.mp failed with ⟨_, rfl, _⟩ | ⟨present, failed⟩
  · exact .edit _
  have named : track.id.isPresent = true := by simpa using present
  rcases run_bind_eq_error_iff.mp failed with compared | ⟨_, _, _, failed⟩
  · exact explained_of_run_volume inProject (List.mem_cons_of_mem _ (List.mem_map_of_mem inCut))
      compared
  rcases run_refuse_eq_error_iff.mp failed with ⟨_, rfl, _⟩ | ⟨_, failed⟩
  · exact Explained.naming (.edit _) (.longId inProject listed)
  rcases run_bind_eq_error_iff.mp failed with required | ⟨_, middle, _, failed⟩
  · exact explained_of_run_requireSource answers inProject listed required
  -- The offset is read in one of two branches; both go on in the same way.
  have tail {offset : Int} {middle : Draft} (failed : (if duration - offset ≤ 0 then
        throw (.naming track.id (.edit (.cut index (.offsetTooLong track.id)))) >>=
            fun (_ : PUnit) => do
          let path ← mediaPath base track.id
          return (⟨track.id, path, .audio, start, duration - offset, index, number⟩, offset,
            track.volume)
      else do
        let path ← mediaPath base track.id
        return (⟨track.id, path, .audio, start, duration - offset, index, number⟩, offset,
          track.volume) : Drafting (Window × Int × Value)).run middle = .error failure after) :
      Explained project graph failure := by
    rcases run_refuse_eq_error_iff.mp failed with ⟨_, rfl, _⟩ | ⟨_, failed⟩
    · exact Explained.naming (.edit _) (.longId inProject listed)
    exact explained_of_run_mediaPath inProject listed named (run_bind_pure_eq_error_iff.mp failed)
  split at failed
  · next given =>
    rcases run_bind_eq_error_iff.mp failed with reading | ⟨offset, _, _, failed⟩
    · obtain ⟨refused, _⟩ := run_lift_eq_error_iff.mp reading
      have inTimes : track.offset ∈ cut.times := List.mem_cons_of_mem _ (List.mem_cons_of_mem _
        (List.mem_filter.mpr ⟨List.mem_map_of_mem inCut, given⟩))
      exact explained_of_time inProject inTimes refused
    · exact tail failed
  · exact tail failed

theorem explained_of_run_resolveTracks {index number : Nat} {start duration : Int} {cut : Cut}
    {tracks : List AudioTrack} (answers : existence.Answers) (inProject : cut ∈ project.cuts)
    (inCut : ∀ track ∈ tracks, track ∈ cut.audio)
    (failed : (resolveTracks existence base index start duration number tracks).run draft =
      .error failure after) : Explained project graph failure := by
  induction tracks generalizing number draft with
  | nil => exact absurd failed run_pure_ne_error
  | cons track tracks ih =>
    obtain ⟨here, later⟩ := List.forall_mem_cons.mp inCut
    unfold resolveTracks at failed
    rcases run_bind_eq_error_iff.mp failed with one | ⟨_, _, _, failed⟩
    · exact explained_of_run_resolveTrack answers inProject here one
    · exact ih later (run_bind_pure_eq_error_iff.mp failed)

theorem explained_of_run_resolveCut {index slot : Nat} {cut : Cut} (answers : existence.Answers)
    (inProject : cut ∈ project.cuts)
    (failed : (resolveCut existence base index slot cut).run draft = .error failure after) :
    Explained project graph failure := by
  unfold resolveCut at failed
  rcases run_refuse_eq_error_iff.mp failed with ⟨_, rfl, _⟩ | ⟨present, failed⟩
  · exact .edit _
  have named : cut.video.id.isPresent = true := by simpa using present
  rcases run_bind_eq_error_iff.mp failed with reading | ⟨start, _, _, failed⟩
  · obtain ⟨refused, _⟩ := run_lift_eq_error_iff.mp reading
    exact explained_of_time inProject List.mem_cons_self refused
  rcases run_bind_eq_error_iff.mp failed with reading | ⟨finish, _, _, failed⟩
  · obtain ⟨refused, _⟩ := run_lift_eq_error_iff.mp reading
    exact explained_of_time inProject (List.mem_cons_of_mem _ List.mem_cons_self) refused
  rcases run_refuse_eq_error_iff.mp failed with ⟨_, rfl, _⟩ | ⟨_, failed⟩
  · exact .edit _
  rcases run_bind_eq_error_iff.mp failed with compared | ⟨_, _, _, failed⟩
  · exact explained_of_run_volume inProject List.mem_cons_self compared
  rcases run_refuse_eq_error_iff.mp failed with ⟨_, rfl, _⟩ | ⟨_, failed⟩
  · exact .edit _
  rcases run_bind_eq_error_iff.mp failed with required | ⟨_, _, _, failed⟩
  · exact explained_of_run_requireSource answers inProject List.mem_cons_self required
  rcases run_bind_eq_error_iff.mp failed with naming | ⟨_, _, _, failed⟩
  · exact explained_of_run_mediaPath inProject List.mem_cons_self named naming
  rcases run_bind_eq_error_iff.mp failed with tracks | ⟨_, _, _, failed⟩
  · exact explained_of_run_resolveTracks answers inProject (fun _ inCut => inCut) tracks
  · cases run_bind_pure_eq_error_iff.mp failed

theorem explained_of_run_resolveCuts {index slot : Nat} {cuts : List Cut}
    (answers : existence.Answers) (inProject : ∀ cut ∈ cuts, cut ∈ project.cuts)
    (failed : (resolveCuts existence base index slot cuts).run draft = .error failure after) :
    Explained project graph failure := by
  induction cuts generalizing index slot draft with
  | nil => exact absurd failed run_pure_ne_error
  | cons cut cuts ih =>
    obtain ⟨here, later⟩ := List.forall_mem_cons.mp inProject
    unfold resolveCuts at failed
    rcases run_bind_eq_error_iff.mp failed with one | ⟨_, _, _, failed⟩
    · exact explained_of_run_resolveCut answers here one
    rcases run_bind_eq_error_iff.mp failed with more | ⟨_, _, _, failed⟩
    · exact ih later more
    · exact absurd failed run_pure_ne_error

theorem explained_of_run_resolve (answers : existence.Answers)
    (failed : (resolve existence project).run draft = .error failure after) :
    Explained project graph failure := by
  unfold resolve at failed
  rcases run_bind_eq_error_iff.mp failed with cuts | ⟨_, _, _, failed⟩
  · exact explained_of_run_resolveCuts answers (fun _ inProject => inProject) cuts
  · cases run_bind_pure_eq_error_iff.mp failed

end CutInputs

/-! ## Cuts that are resolved -/

/-- A cut of which every value is of the kind that is read: its volumes are numbers, its ids are
texts, and its times can be read. -/
structure Cut.Fit (cut : Cut) : Prop where
  volumes : ∀ volume ∈ cut.volumes, volume.number? ≠ none
  ids : ∀ id ∈ cut.sources, ∃ name, id = .text name
  times : ∀ time ∈ cut.times, ∃ seconds, Timecode.toSeconds time = .ok seconds

theorem Value.number?_of_lt {a b : Value} {less : Bool} (compared : a.lt b = .ok less) :
    a.number? ≠ none := by
  intro uncounted
  unfold Value.lt Value.number at compared
  rw [uncounted] at compared
  cases compared

namespace CutInputs

theorem counted_of_run_resolveTrack {index number : Nat} {start duration : Int}
    {track : AudioTrack} {entry : Window × Int × Value}
    (resolved : (resolveTrack existence base index start duration number track).run draft =
      .ok entry after) : track.volume.number? ≠ none := by
  unfold resolveTrack at resolved
  obtain ⟨_, resolved⟩ := run_refuse_eq_ok_iff.mp resolved
  obtain ⟨_, _, compared, _⟩ := run_bind_eq_ok_iff.mp resolved
  exact Value.number?_of_lt (run_lift_defect_eq_ok_iff.mp compared).1

theorem counted_of_run_resolveTracks {index number : Nat} {start duration : Int}
    {tracks : List AudioTrack} {entries : List (Window × Int × Value)}
    (resolved : (resolveTracks existence base index start duration number tracks).run draft =
      .ok entries after) : ∀ track ∈ tracks, track.volume.number? ≠ none := by
  induction tracks generalizing number draft after entries with
  | nil => exact List.forall_mem_nil _
  | cons track tracks ih =>
    unfold resolveTracks at resolved
    obtain ⟨_, _, one, resolved⟩ := run_bind_eq_ok_iff.mp resolved
    obtain ⟨_, _, more, _⟩ := run_bind_eq_ok_iff.mp resolved
    exact List.forall_mem_cons.mpr ⟨counted_of_run_resolveTrack one, ih more⟩

theorem counted_of_run_resolveCut {index slot : Nat} {cut : Cut}
    {result : List Window × CutInputs}
    (resolved : (resolveCut existence base index slot cut).run draft = .ok result after) :
    ∀ volume ∈ cut.volumes, volume.number? ≠ none := by
  unfold resolveCut at resolved
  obtain ⟨_, resolved⟩ := run_refuse_eq_ok_iff.mp resolved
  obtain ⟨_, _, _, resolved⟩ := run_bind_eq_ok_iff.mp resolved
  obtain ⟨_, _, _, resolved⟩ := run_bind_eq_ok_iff.mp resolved
  obtain ⟨_, resolved⟩ := run_refuse_eq_ok_iff.mp resolved
  obtain ⟨_, _, compared, resolved⟩ := run_bind_eq_ok_iff.mp resolved
  have own := Value.number?_of_lt (run_lift_defect_eq_ok_iff.mp compared).1
  obtain ⟨_, resolved⟩ := run_refuse_eq_ok_iff.mp resolved
  obtain ⟨_, _, _, resolved⟩ := run_bind_eq_ok_iff.mp resolved
  obtain ⟨_, _, _, resolved⟩ := run_bind_eq_ok_iff.mp resolved
  obtain ⟨_, _, tracks, _⟩ := run_bind_eq_ok_iff.mp resolved
  have counted := counted_of_run_resolveTracks tracks
  refine List.forall_mem_cons.mpr ⟨own, ?_⟩
  intro volume present
  obtain ⟨track, inCut, rfl⟩ := List.mem_map.mp present
  exact counted track inCut

theorem CutResolved.fit {index slot : Nat} {cut : Cut} {start duration : Int}
    {windows : List Window} {inputs : CutInputs}
    (resolved : CutResolved base index slot cut start duration windows inputs)
    (volumes : ∀ volume ∈ cut.volumes, volume.number? ≠ none) : cut.Fit := by
  refine ⟨volumes, ?_, ?_⟩
  · intro id present
    obtain ⟨place, found⟩ := List.getElem?_of_mem present
    obtain ⟨_, name, _, _, isText, _⟩ := resolved.source found
    exact ⟨name, isText⟩
  · obtain ⟨_, entries, _, tracks, _, _⟩ := resolved.rest
    refine List.forall_mem_cons.mpr ⟨⟨start, resolved.starts⟩,
      List.forall_mem_cons.mpr ⟨⟨_, resolved.ends⟩, ?_⟩⟩
    intro offset present
    obtain ⟨listed, given⟩ := List.mem_filter.mp present
    obtain ⟨track, inCut, rfl⟩ := List.mem_map.mp listed
    obtain ⟨place, found⟩ := List.getElem?_of_mem inCut
    obtain ⟨entry, _, isTrack⟩ := tracks.entry found
    have shift := isTrack.shift
    rw [AudioTrack.shift, if_pos given] at shift
    exact ⟨_, shift⟩

theorem fit_of_run_resolveCuts {index slot : Nat} {cuts : List Cut}
    {result : List Window × List CutInputs}
    (resolved : (resolveCuts existence base index slot cuts).run draft = .ok result after) :
    ∀ cut ∈ cuts, cut.Fit := by
  induction cuts generalizing index slot draft after result with
  | nil => exact List.forall_mem_nil _
  | cons cut cuts ih =>
    unfold resolveCuts at resolved
    obtain ⟨⟨_, _⟩, _, one, resolved⟩ := run_bind_eq_ok_iff.mp resolved
    obtain ⟨⟨_, _⟩, _, more, _⟩ := run_bind_eq_ok_iff.mp resolved
    obtain ⟨⟨_, _, known⟩, _⟩ := cutResolved_of_run one
    exact List.forall_mem_cons.mpr ⟨known.fit (counted_of_run_resolveCut one), ih more⟩

end CutInputs

end Montage
