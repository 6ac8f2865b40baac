import Montage.Proofs.Resolution
import Montage.Proofs.UncheckedValues
import Montage.Proofs.WellFormed

/-!
# In which order media files are resolved

Resolving a project asks for its media files cut by cut, in each cut for the video and then for the
tracks in their order (`Project.requests`). Where it succeeds, there is one window for each of these
requests, in the same order, and each was asked for once. Where it fails, the requests up to some
place were asked for; the failure is that of a missing file exactly where the last of them was
answered so, unless its id is too long for a message, and what follows the failing cut does not
matter. Steps that ask for files in their order are put together with `Asks.bind`. Main statement:
`outcome_of_run_resolve`.
-/

namespace Montage

open Drafting

/-! ## Requests -/

/-- A file that a cut uses: the place of the cut, the number of the track, which is zero for the
video, the part that the file plays and its id. -/
structure SourceRequest where
  index : Nat
  track : Nat
  role : SourceRole
  id : Value

/-- The requests of tracks that are numbered from `number` on. -/
def AudioTrack.requests (index number : Nat) : List AudioTrack → List SourceRequest
  | [] => []
  | track :: tracks => ⟨index, number, .audio, track.id⟩ :: requests index (number + 1) tracks

/-- The requests of a cut: its video, then its tracks. -/
def Cut.requests (index : Nat) (cut : Cut) : List SourceRequest :=
  ⟨index, 0, .video, cut.video.id⟩ :: AudioTrack.requests index 1 cut.audio

/-- The requests of cuts that are numbered from `index` on. -/
def Cut.requestsFrom (index : Nat) : List Cut → List SourceRequest
  | [] => []
  | cut :: cuts => cut.requests index ++ requestsFrom (index + 1) cuts

/-- All requests of a project in their order. -/
def Project.requests (project : Project) : List SourceRequest :=
  Cut.requestsFrom 0 project.cuts

theorem AudioTrack.ids_requests (index number : Nat) (tracks : List AudioTrack) :
    (requests index number tracks).map (·.id) = tracks.map (·.id) := by
  induction tracks generalizing number with
  | nil => rfl
  | cons track tracks ih => rw [requests, List.map_cons, List.map_cons, ih]

theorem Cut.ids_requestsFrom (index : Nat) (cuts : List Cut) :
    (requestsFrom index cuts).map (·.id) = cuts.flatMap Cut.sources := by
  induction cuts generalizing index with
  | nil => rfl
  | cons cut cuts ih =>
    rw [requestsFrom, List.map_append, ih, List.flatMap_cons, requests, List.map_cons,
      AudioTrack.ids_requests]
    rfl

theorem Cut.requestsFrom_append (index : Nat) (cuts more : List Cut) :
    requestsFrom index (cuts ++ more) =
      requestsFrom index cuts ++ requestsFrom (index + cuts.length) more := by
  induction cuts generalizing index with
  | nil => rfl
  | cons cut cuts ih =>
    rw [List.cons_append, requestsFrom, requestsFrom, ih, List.append_assoc, List.length_cons,
      Nat.add_assoc, Nat.add_comm 1]

/-! ## Asking -/

/-- Whether a failure is that of a missing file. -/
def Failure.isMissing : Failure → Bool
  | .edit (.missingSource ..) => true
  | _ => false

theorem Failure.isMissing_naming {failure : Failure} (plain : failure.isMissing = false)
    (value : Value) : (naming value failure).isMissing = false := by
  rcases naming_cases value failure with same | ⟨_, same⟩
  · rw [same, plain]
  · rw [same]
    rfl

/-- The failure that tells of a request that its file is missing. -/
def SourceRequest.missing (request : SourceRequest) : Failure :=
  .edit (.missingSource request.index request.role request.id)

/-- Between two drafts just these files were asked for, in this order. -/
def Draft.Asked (base : Path) (draft after : Draft) (requests : List SourceRequest) : Prop :=
  after.checked = draft.checked ++ requests.map fun request => (base, request.id)

section Asking

variable {existence : ExistenceCheck} {base : Path} {requests more : List SourceRequest}
  {draft middle after : Draft} {failure : Failure}

/-- The files of some requests are all there. -/
def ExistenceCheck.Finds (existence : ExistenceCheck) (base : Path)
    (requests : List SourceRequest) : Prop :=
  ∀ request ∈ requests, existence base request.id = .ok true

/-- A failure after some requests: that the last file is missing, or another one with all of
them there. -/
inductive Refusal (existence : ExistenceCheck) (base : Path) :
    List SourceRequest → Failure → Prop
  | missing {found : List SourceRequest} {last : SourceRequest} : existence.Finds base found →
      existence base last.id = .ok false →
      Refusal existence base (found ++ [last]) (.naming last.id last.missing)
  | other {found : List SourceRequest} {failure : Failure} : existence.Finds base found →
      failure.isMissing = false → Refusal existence base found failure

/-- A failure with some of the requests left unasked, or none. -/
def Halted (existence : ExistenceCheck) (base : Path) (draft : Draft)
    (requests : List SourceRequest) (failure : Failure) (after : Draft) : Prop :=
  ∃ asked, asked <+: requests ∧ draft.Asked base after asked ∧
    Refusal existence base asked failure

/-- A step that asks for files in their order, until one is missing or something else fails. -/
def Asks {α : Type} (existence : ExistenceCheck) (base : Path) (requests : List SourceRequest)
    (step : Drafting α) : Prop :=
  ∀ draft, Ensures (fun _ after => draft.Asked base after requests ∧ existence.Finds base requests)
    (Halted existence base draft requests) (step.run draft)

theorem Draft.Asked.trans (first : draft.Asked base middle requests)
    (second : middle.Asked base after more) : draft.Asked base after (requests ++ more) := by
  rw [Draft.Asked, second, first, List.map_append, List.append_assoc]

theorem Draft.asked_nil (base : Path) (draft : Draft) : draft.Asked base draft [] :=
  (List.append_nil _).symm

theorem ExistenceCheck.Finds.append (first : existence.Finds base requests)
    (second : existence.Finds base more) : existence.Finds base (requests ++ more) :=
  List.forall_mem_append.mpr ⟨first, second⟩

theorem ExistenceCheck.finds_nil : existence.Finds base [] :=
  List.forall_mem_nil _

/-- Requests that were found before a refusal do not change it. -/
theorem Refusal.behind (found : existence.Finds base requests)
    (refusal : Refusal existence base more failure) :
    Refusal existence base (requests ++ more) failure := by
  cases refusal with
  | missing later absent =>
    rw [← List.append_assoc]
    exact .missing (found.append later) absent
  | other later plain => exact .other (found.append later) plain

theorem Halted.weaken (halted : Halted existence base draft requests failure after)
    (more : List SourceRequest) :
    Halted existence base draft (requests ++ more) failure after := by
  obtain ⟨asked, inOrder, calls, refusal⟩ := halted
  exact ⟨asked, inOrder.trans (List.prefix_append _ _), calls, refusal⟩

theorem Halted.behind (asked : draft.Asked base middle requests)
    (found : existence.Finds base requests)
    (halted : Halted existence base middle more failure after) :
    Halted existence base draft (requests ++ more) failure after := by
  obtain ⟨later, inOrder, calls, refusal⟩ := halted
  exact ⟨requests ++ later, (List.prefix_append_right_inj _).mpr inOrder, asked.trans calls,
    refusal.behind found⟩

/-- A failure before anything was asked for. -/
theorem halted_of_other (requests : List SourceRequest) (draft : Draft)
    (plain : failure.isMissing = false) :
    Halted existence base draft requests failure draft :=
  ⟨[], List.nil_prefix, draft.asked_nil base, .other ExistenceCheck.finds_nil plain⟩

section Steps

variable {α β : Type}

theorem asks_pure (value : α) : Asks existence base [] (pure value : Drafting α) :=
  fun draft => .ok ⟨draft.asked_nil base, ExistenceCheck.finds_nil⟩

/-- Steps that follow each other ask for the files of the first, then for those of the other. -/
theorem Asks.bind {step : Drafting α} {next : α → Drafting β}
    (first : Asks existence base requests step)
    (rest : ∀ value, Asks existence base more (next value)) :
    Asks existence base (requests ++ more) (step >>= next) := by
  intro draft
  refine ensures_bind ((first draft).imp (fun _ _ done => done) fun _ _ halted =>
    halted.weaken more) ?_
  rintro value middle ⟨asked, found⟩
  exact (rest value middle).imp (fun _ _ done => ⟨asked.trans done.1, found.append done.2⟩)
    fun _ _ halted => halted.behind asked found

/-- What comes after a step that asks for nothing. -/
theorem Asks.next {step : Drafting α} {next : α → Drafting β} (first : Asks existence base [] step)
    (rest : ∀ value, Asks existence base requests (next value)) :
    Asks existence base requests (step >>= next) :=
  first.bind rest

/-- A step that nothing is asked for after. -/
theorem Asks.last {step : Drafting α} {next : α → Drafting β}
    (first : Asks existence base requests step)
    (rest : ∀ value, Asks existence base [] (next value)) :
    Asks existence base requests (step >>= next) := by
  rw [← List.append_nil requests]
  exact first.bind rest

theorem asks_lift {operation : Except Failure α}
    (plain : ∀ failure, operation = .error failure → failure.isMissing = false) :
    Asks existence base [] (liftM operation : Drafting α) :=
  fun draft => ensures_lift (fun _ _ => ⟨draft.asked_nil base, ExistenceCheck.finds_nil⟩)
    fun failure failed => halted_of_other [] draft (plain failure failed)

theorem asks_lift_defect (operation : Except Defect α) :
    Asks existence base [] (liftM operation : Drafting α) := by
  cases operation with
  | ok value => exact asks_pure value
  | error defect => exact fun draft => .error (halted_of_other [] draft rfl)

theorem asks_toSeconds (time : Value) :
    Asks existence base [] (liftM (Timecode.toSeconds time) : Drafting Int) := by
  refine asks_lift fun failure failed => ?_
  rcases Timecode.toSeconds_eq_error failed with ⟨fault, rfl⟩ | ⟨rfl, _⟩
  · rfl
  · rfl

/-- A step may refuse before it asks for anything. -/
theorem asks_refuse {refused : Prop} [Decidable refused] {next : β → Drafting α}
    {rest : Drafting α} (plain : failure.isMissing = false)
    (asks : Asks existence base requests rest) :
    Asks existence base requests (if refused then throw failure >>= next else rest) := by
  split
  · exact fun draft => .error (halted_of_other requests draft plain)
  · exact asks

theorem asks_report (level : LogLevel) (reporter text : String) :
    Asks existence base [] (report level reporter text) :=
  fun _ => .ok ⟨(List.append_nil _).symm, ExistenceCheck.finds_nil⟩

end Steps

end Asking

namespace CutInputs

variable {existence : ExistenceCheck} {base : Path}

theorem asks_requireSource (answers : existence.Answers) (request : SourceRequest) :
    Asks existence base [request]
      (requireSource existence base request.index request.role request.id) := by
  intro draft
  have asked : draft.Asked base { draft with checked := draft.checked ++ [(base, request.id)] }
    [request] := rfl
  obtain ⟨found, answer⟩ := answers base request.id
  have noted : (noteCheck base request.id).run draft =
    .ok () { draft with checked := draft.checked ++ [(base, request.id)] } := rfl
  unfold requireSource
  rw [EStateM.run_bind, noted, answer]
  cases found with
  | true => exact .ok ⟨asked, by simpa [ExistenceCheck.Finds] using answer⟩
  | false =>
    exact .error ⟨[request], List.prefix_rfl, asked, .missing ExistenceCheck.finds_nil answer⟩

theorem asks_resolveTrack (answers : existence.Answers) (index number : Nat)
    (start duration : Int) (track : AudioTrack) :
    Asks existence base [⟨index, number, .audio, track.id⟩]
      (resolveTrack existence base index start duration number track) := by
  unfold resolveTrack
  have plain (fault : CutFault) :
      (Failure.naming track.id (.edit (.cut index fault))).isMissing = false :=
    Failure.isMissing_naming rfl _
  refine asks_refuse rfl ((asks_lift_defect _).next fun _ => asks_refuse (plain _) ?_)
  refine (asks_requireSource answers ⟨index, number, .audio, track.id⟩).last fun _ => ?_
  -- The offset is read in one of two branches; nothing is asked for in either.
  split
  · refine (asks_toSeconds track.offset).next fun _ => asks_refuse (plain _) ?_
    exact (asks_lift_defect _).next fun _ => asks_pure _
  · exact asks_refuse (plain _) ((asks_lift_defect _).next fun _ => asks_pure _)

theorem asks_resolveTracks (answers : existence.Answers) (index number : Nat)
    (start duration : Int) (tracks : List AudioTrack) :
    Asks existence base (AudioTrack.requests index number tracks)
      (resolveTracks existence base index start duration number tracks) := by
  induction tracks generalizing number with
  | nil => exact asks_pure _
  | cons track tracks ih =>
    exact (asks_resolveTrack answers index number start duration track).bind fun _ =>
      (ih (number + 1)).last fun _ => asks_pure _

theorem asks_resolveCut (answers : existence.Answers) (index slot : Nat) (cut : Cut) :
    Asks existence base (cut.requests index) (resolveCut existence base index slot cut) := by
  unfold resolveCut
  refine asks_refuse rfl ((asks_toSeconds _).next fun start => ?_)
  refine (asks_toSeconds _).next fun finish => asks_refuse rfl ?_
  refine (asks_lift_defect _).next fun _ => asks_refuse rfl ?_
  refine (asks_requireSource answers ⟨index, 0, .video, cut.video.id⟩).bind fun _ => ?_
  refine (asks_lift_defect _).next fun _ => ?_
  refine (asks_resolveTracks answers index 1 start (finish - start) cut.audio).last fun _ => ?_
  exact (asks_report _ _ _).next fun _ => asks_pure _

theorem asks_resolveCuts (answers : existence.Answers) (index slot : Nat) (cuts : List Cut) :
    Asks existence base (Cut.requestsFrom index cuts)
      (resolveCuts existence base index slot cuts) := by
  induction cuts generalizing index slot with
  | nil => exact asks_pure _
  | cons cut cuts ih =>
    exact (asks_resolveCut answers index slot cut).bind fun _ =>
      (ih _ _).last fun _ => asks_pure _

/-! ## The failing cut -/

variable {draft after : Draft} {failure : Failure}

/-- Resolving cuts fails in one of them, those before it having been resolved; the cuts behind it
may be any others. -/
theorem exists_failing_cut (answers : existence.Answers) {index slot : Nat} {cuts : List Cut}
    (failed : (resolveCuts existence base index slot cuts).run draft = .error failure after) :
    ∃ earlier cut rest middle own, cuts = earlier ++ cut :: rest ∧
      draft.Asked base middle (Cut.requestsFrom index earlier) ∧
      existence.Finds base (Cut.requestsFrom index earlier) ∧
      (resolveCut existence base (index + earlier.length) own cut).run middle =
        .error failure after ∧
      ∀ others, (resolveCuts existence base index slot (earlier ++ cut :: others)).run draft =
        .error failure after := by
  induction cuts generalizing index slot draft with
  | nil => exact absurd failed run_pure_ne_error
  | cons cut cuts ih =>
    rcases run_bind_eq_error_iff.mp failed with one | ⟨⟨windows, inputs⟩, next, one, failed⟩
    · exact ⟨[], cut, cuts, draft, slot, rfl, draft.asked_nil base, ExistenceCheck.finds_nil, one,
        fun others => run_bind_eq_error_iff.mpr (.inl one)⟩
    · rcases run_bind_eq_error_iff.mp failed with more | ⟨_, _, _, failed⟩
      · obtain ⟨earlier, failing, rest, middle, own, rfl, asked, found, fails, alone⟩ := ih more
        obtain ⟨askedHere, foundHere⟩ := (asks_resolveCut answers index slot cut draft).of_ok one
        refine ⟨cut :: earlier, failing, rest, middle, own, rfl, askedHere.trans asked,
          foundHere.append found, ?_, fun others => ?_⟩
        · rwa [List.length_cons, Nat.add_comm earlier.length, ← Nat.add_assoc]
        · exact run_bind_eq_error_iff.mpr (.inr ⟨_, next, one,
            run_bind_eq_error_iff.mpr (.inl (alone others))⟩)
      · exact absurd failed run_pure_ne_error

end CutInputs

/-! ## What requests resolve to -/

/-- The kind of stream that a file is read for. -/
def SourceRole.kind : SourceRole → StreamKind
  | .video => .video
  | .audio => .audio

/-- A window on the file of a request, below a base. -/
structure Window.Serves (base : Path) (window : Window) (request : SourceRequest) : Prop where
  id : window.id = request.id
  path : ∃ name, request.id = .text name ∧ base.join (Path.ofString name) = window.path
  index : window.index = request.index
  track : window.track = request.track
  kind : window.kind = request.role.kind
  lasts : 0 < window.duration

/-- The sounds of a cut have `count` slots in a row, the first of which is that of its video; each
has an offset and a volume, and that of the video is not moved. -/
structure CutInputs.Numbered (inputs : CutInputs) (slot count : Nat) : Prop where
  video : inputs.video = slot
  audio : inputs.audio = (List.range' slot count).map fun (place : Nat) => (place : Int)
  offsets : inputs.offsets.length = count
  volumes : inputs.volumes.length = count
  unmoved : inputs.offsets.head? = some 0

namespace CutInputs

variable {base : Path} {index slot : Nat} {cuts : List Cut} {windows : List Window}
  {inputs : List CutInputs}

theorem TracksResolved.serves {number : Nat} {start duration : Int} {tracks : List AudioTrack}
    {entries : List (Window × Int × Value)}
    (resolved : TracksResolved base index start duration number tracks entries) :
    List.Forall₂ (Window.Serves base) (entries.map (·.1))
      (AudioTrack.requests index number tracks) := by
  induction resolved with
  | nil => exact .nil
  | @cons number track entry _ _ first _ ih =>
    have named := mediaPath_eq_ok_iff.mp first.path
    have own : Window.Serves base entry.1 ⟨index, number, .audio, track.id⟩ := by
      rw [first.window]
      exact ⟨rfl, named, rfl, rfl, rfl, first.remains⟩
    exact .cons own ih

theorem CutResolved.serves {cut : Cut} {start duration : Int} {own : CutInputs}
    (resolved : CutResolved base index slot cut start duration windows own) :
    List.Forall₂ (Window.Serves base) windows (cut.requests index) := by
  obtain ⟨path, entries, named, tracks, rfl, -⟩ := resolved.rest
  exact .cons ⟨rfl, mediaPath_eq_ok_iff.mp named, rfl, rfl, rfl, resolved.lasts⟩ tracks.serves

theorem CutResolved.numbered {cut : Cut} {start duration : Int} {own : CutInputs}
    (resolved : CutResolved base index slot cut start duration windows own) :
    own.Numbered slot windows.length := by
  obtain ⟨path, entries, _, _, rfl, rfl⟩ := resolved.rest
  refine ⟨rfl, ?_, by simp, by simp, rfl⟩
  rw [List.range'_eq_map_range, List.map_map, List.length_cons, List.length_map]
  rfl

/-- Cuts serve their requests in order. -/
theorem CutsResolved.serves (resolved : CutsResolved base index slot cuts windows inputs) :
    List.Forall₂ (Window.Serves base) windows (Cut.requestsFrom index cuts) := by
  induction resolved with
  | nil => exact .nil
  | cons first _ ih => exact List.rel_append first.serves ih

/-- The sounds of all cuts together have the slots of all windows in a row. -/
theorem CutsResolved.slots_eq (resolved : CutsResolved base index slot cuts windows inputs) :
    inputs.flatMap (·.audio) =
      (List.range' slot windows.length).map fun (place : Nat) => (place : Int) := by
  induction resolved with
  | nil => rfl
  | cons first _ ih =>
    rw [List.flatMap_cons, first.numbered.audio, ih, ← List.map_append, List.length_append,
      List.range'_append_1]

theorem CutsResolved.numbered (resolved : CutsResolved base index slot cuts windows inputs) :
    ∀ own ∈ inputs, ∃ slot count, 0 < count ∧ own.Numbered slot count := by
  induction resolved with
  | nil => exact List.forall_mem_nil _
  | cons first _ ih =>
    refine List.forall_mem_cons.mpr ⟨⟨_, _, ?_, first.numbered⟩, ih⟩
    obtain ⟨_, _, _, _, rfl, _⟩ := first.rest
    exact Nat.succ_pos _

end CutInputs

/-! ## All cuts -/

/-- The windows and inputs of a project: one window for each request, and one group of slots for
each cut. -/
structure Project.Resolved (project : Project) (windows : List Window) (inputs : List CutInputs) :
    Prop where
  serves : List.Forall₂ (Window.Serves project.base) windows project.requests
  cuts : inputs.map (·.index) =
    (List.range project.cuts.length).map fun (place : Nat) => (place : Int)
  numbered : ∀ own ∈ inputs, ∃ slot count, 0 < count ∧ own.Numbered slot count
  slots : inputs.flatMap (·.audio) =
    (List.range windows.length).map fun (place : Nat) => (place : Int)

/-- A failure of resolving a project, some of its requests having been asked for. -/
structure Project.Refused (existence : ExistenceCheck) (project : Project) (draft : Draft)
    (failure : Failure) (after : Draft) (asked : List SourceRequest) : Prop where
  calls : draft.Asked project.base after asked
  inOrder : asked <+: project.requests
  /-- All files but the last are there. -/
  found : existence.Finds project.base asked.dropLast
  /-- The failure is that of a missing file exactly where the last of them is not there, if its id
  can be named. -/
  isMissing_iff : failure.isMissing = true ↔ ∃ last, asked.getLast? = some last ∧
    existence project.base last.id = .ok false ∧ ¬ last.id.Overlong
  /-- A missing file whose id has more digits than can be written is a defect. -/
  unnamed : ∀ last, asked.getLast? = some last → existence project.base last.id = .ok false →
    last.id.Overlong → failure = .defect .badValue
  /-- Such a failure names the last request. -/
  named : failure.isMissing = true → ∃ last, asked.getLast? = some last ∧ failure = last.missing
  /-- The last requests are those of the cut that fails. The files of the cuts before it are all
  there, and the cuts behind it may be any others. -/
  alone : ∃ earlier cut rest own, project.cuts = earlier ++ cut :: rest ∧
    asked = Cut.requestsFrom 0 earlier ++ own ∧ own <+: cut.requests earlier.length ∧
    existence.Finds project.base (Cut.requestsFrom 0 earlier) ∧
    ∀ others, (CutInputs.resolve existence { project with cuts := earlier ++ cut :: others }).run
      draft = .error failure after

section Last

variable {existence : ExistenceCheck} {base : Path} {asked : List SourceRequest}
  {failure : Failure}

theorem Refusal.found (refusal : Refusal existence base asked failure) :
    existence.Finds base asked.dropLast := by
  cases refusal with
  | missing allFound _ => rwa [List.dropLast_concat]
  | other allFound _ =>
    exact fun request present => allFound request (List.dropLast_subset _ present)

/-- What was answered to the last request where its file is not there. -/
theorem Refusal.eq_naming (refusal : Refusal existence base asked failure) {last : SourceRequest}
    (isLast : asked.getLast? = some last) (absent : existence base last.id = .ok false) :
    failure = .naming last.id last.missing := by
  cases refusal with
  | missing _ _ =>
    rw [List.getLast?_concat] at isLast
    rw [Option.some.inj isLast]
  | other allFound _ =>
    have there := allFound last (List.mem_of_getLast? isLast)
    rw [absent] at there
    cases there

theorem Refusal.exists_last (refusal : Refusal existence base asked failure)
    (missing : failure.isMissing = true) : ∃ last, asked.getLast? = some last ∧
      existence base last.id = .ok false ∧ ¬ last.id.Overlong ∧ failure = last.missing := by
  cases refusal with
  | @missing found last _ absent =>
    rcases Failure.naming_cases last.id last.missing with same | ⟨_, same⟩
    · refine ⟨last, List.getLast?_concat, absent, fun long => ?_, same⟩
      rw [Failure.naming_of_overlong long] at missing
      cases missing
    · rw [same] at missing
      cases missing
  | other _ plain =>
    rw [plain] at missing
    cases missing

theorem Refusal.isMissing_iff (refusal : Refusal existence base asked failure) :
    failure.isMissing = true ↔ ∃ last, asked.getLast? = some last ∧
      existence base last.id = .ok false ∧ ¬ last.id.Overlong := by
  constructor
  · intro missing
    obtain ⟨last, isLast, absent, short, -⟩ := refusal.exists_last missing
    exact ⟨last, isLast, absent, short⟩
  · rintro ⟨last, isLast, absent, short⟩
    rw [refusal.eq_naming isLast absent, Failure.naming_of_not_overlong short]
    rfl

end Last

namespace CutInputs

variable {existence : ExistenceCheck} {draft after : Draft} {failure : Failure}

theorem refused_of_run_resolve (answers : existence.Answers) {project : Project}
    (failed : (resolve existence project).run draft = .error failure after) :
    ∃ asked, project.Refused existence draft failure after asked := by
  rcases run_bind_eq_error_iff.mp failed with failed | ⟨_, _, _, failed⟩
  · obtain ⟨earlier, cut, rest, middle, slot, split, asked, found, fails, alone⟩ :=
      exists_failing_cut answers failed
    rw [Nat.zero_add] at fails
    obtain ⟨own, inOrder, calls, refusal⟩ :=
      (asks_resolveCut answers earlier.length slot cut middle).of_error fails
    have whole := refusal.behind found
    refine ⟨_, asked.trans calls, ?_, whole.found, whole.isMissing_iff, ?_, ?_,
      earlier, cut, rest, own, split, rfl, inOrder, found, fun others => ?_⟩
    · rw [Project.requests, split, Cut.requestsFrom_append, Nat.zero_add, Cut.requestsFrom]
      exact (List.prefix_append_right_inj _).mpr (inOrder.trans (List.prefix_append _ _))
    · intro last isLast absent long
      rw [whole.eq_naming isLast absent, Failure.naming_of_overlong long]
    · intro missing
      obtain ⟨last, isLast, _, _, same⟩ := whole.exists_last missing
      exact ⟨last, isLast, same⟩
    · exact run_bind_eq_error_iff.mpr (.inl (alone others))
  · cases failed

theorem resolved_of_run_resolve {project : Project} {windows : List Window}
    {inputs : List CutInputs}
    (ran : (resolve existence project).run draft = .ok (windows, inputs) after) :
    project.Resolved windows inputs := by
  obtain ⟨resolved, -⟩ := projectResolved_of_run ran
  refine ⟨resolved.serves, ?_, resolved.numbered, ?_⟩
  · rw [resolved.indices_eq, resolved.length_eq, List.range_eq_range']
  · rw [resolved.slots_eq, List.range_eq_range']

/-- With an existence check that always has an answer, resolving a project gives a window for each
request, each having been asked for once and in order, or it is refused. -/
theorem outcome_of_run_resolve (answers : existence.Answers) (project : Project) (draft : Draft) :
    Ensures
      (fun found after => project.Resolved found.1 found.2 ∧
        after.checked = draft.checked ++
          (project.cuts.flatMap Cut.sources).map (fun id => (project.base, id)) ∧
        existence.Finds project.base project.requests)
      (fun failure after => ∃ asked, project.Refused existence draft failure after asked)
      ((resolve existence project).run draft) := by
  have asks : Asks existence project.base project.requests (resolve existence project) :=
    (asks_resolveCuts answers 0 0 project.cuts).last fun _ =>
      (asks_report _ _ _).next fun _ => asks_pure _
  cases ran : (resolve existence project).run draft with
  | ok found after =>
    obtain ⟨asked, allFound⟩ := (asks draft).of_ok ran
    refine .ok ⟨resolved_of_run_resolve ran, ?_, allFound⟩
    rw [← Cut.ids_requestsFrom 0, List.map_map]
    exact asked
  | error failure after => exact .error (refused_of_run_resolve answers ran)

/-- A store in which one video is missing. -/
def nightless : ExistenceCheck :=
  fun _ id => .ok (id != .text "night")

/-- The sample project is refused at its second cut, which is the first to ask for this video. -/
theorem outcome_nightless : ∃ after asked,
    (resolve nightless Compilation.sampleProject).run {} =
      .error (.edit (.missingSource 1 .video (.text "night"))) after ∧
    Compilation.sampleProject.Refused nightless {}
      (.edit (.missingSource 1 .video (.text "night"))) after asked := by
  have answers : nightless.Answers := fun _ id => ⟨id != .text "night", rfl⟩
  have outcome := outcome_of_run_resolve answers Compilation.sampleProject {}
  have fails : (match (resolve nightless Compilation.sampleProject).run {} with
      | .ok .. => none
      | .error failure _ => some failure) =
        some (.edit (.missingSource 1 .video (.text "night"))) := by
    decide +kernel
  cases ran : (resolve nightless Compilation.sampleProject).run {} with
  | ok found after =>
    rw [ran] at fails
    cases fails
  | error failure after =>
    obtain ⟨asked, refused⟩ := outcome.of_error ran
    rw [ran] at fails
    obtain rfl := Option.some.inj fails
    exact ⟨after, asked, rfl, refused⟩

end CutInputs

end Montage
