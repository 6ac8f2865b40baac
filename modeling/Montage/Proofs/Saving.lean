import Mathlib.Data.List.TakeWhile
import Montage.Proofs.SavedProject
import Montage.Proofs.SessionOutcome
import Montage.Proofs.WrittenFiles

/-!
# Sessions that save a copy

What a session comes to that reaches its copy can be computed before it is started (`saving?`): the
copy is tried exactly then (`copy_of_start`), it is the last thing done, and its outcome is that of
the session (`ended_of_saves`). A copy that is saved is there as a whole (`read_saveCopy`).
-/

namespace Montage

namespace Text

theorem isStorable_join (pieces : List String) :
    isStorable (String.join pieces) = pieces.all isStorable := by
  unfold isStorable
  rw [String.toList_join, List.all_flatMap]

end Text

namespace Catalogue

variable {tree : FileTree} {project : Project} {path : Path}

/-- A copy is saved if its file can be written and every piece of its text can be stored. -/
theorem saveCopy_eq_ok_iff :
    (saveCopy tree project path).1 = .ok () ↔
      (tree.write path (.text (Document.written project.toValue))).isOk = true ∧
        (Document.pieces project.toValue).all Text.isStorable = true := by
  rw [← Text.isStorable_join]
  unfold saveCopy
  cases tree.write path (.text (Document.written project.toValue)) with
  | error fault => exact iff_of_false nofun nofun
  | ok after =>
    show (if Text.isStorable (copyText project) then _ else _) = _ ↔ _
    split
    · next storable => exact iff_of_true rfl ⟨rfl, storable⟩
    · next unstorable => exact iff_of_false nofun fun both => unstorable both.2

/-- The tree is written to if the path allows it, even if not all of the text can be stored. -/
theorem write_of_saveCopy (tree : FileTree) (project : Project) (path : Path) :
    tree.write path (.text (Document.written project.toValue)) =
        .ok (saveCopy tree project path).2 ∨
      (saveCopy tree project path).2 = tree ∧ (saveCopy tree project path).1 ≠ .ok () := by
  unfold saveCopy
  cases tree.write path (.text (Document.written project.toValue)) with
  | error fault => exact .inr ⟨rfl, nofun⟩
  | ok after => exact .inl rfl

/-- A copy that is saved is written as a whole. -/
theorem write_of_saveCopy_eq_ok (saved : (saveCopy tree project path).1 = .ok ()) :
    tree.write path (.text (copyText project)) = .ok (saveCopy tree project path).2 := by
  obtain ⟨-, storable⟩ := saveCopy_eq_ok_iff.mp saved
  have whole : Document.written project.toValue = copyText project :=
    congrArg String.join (List.takeWhile_eq_self_iff.mpr (List.all_eq_true.mp storable))
  rw [← whole]
  exact (write_of_saveCopy tree project path).resolve_right fun both => both.2 saved

theorem read_saveCopy (saved : (saveCopy tree project path).1 = .ok ()) :
    (saveCopy tree project path).2.read path = .ok (.text (copyText project)) :=
  FileTree.read_write_self (write_of_saveCopy_eq_ok saved)

end Catalogue

namespace Session

/-- What a session has come to that saves a copy. -/
structure Saving where
  options : Options
  choice : Choice
  /-- What had been done when all choices were made. -/
  opened : SessionTrace
  request : RenderRequest
  graph : Graph
  command : List String
  path : Path

variable {surroundings : Surroundings} {tree : FileTree} {input : String}
  {arguments : List String} {saving : Saving}

/-- What a session will come to, if it will save a copy. -/
def saving? (surroundings : Surroundings) (tree : FileTree) (input : String)
    (arguments : List String) : Option Saving :=
  match Options.read arguments with
  | .error _ => none
  | .ok options =>
    match EStateM.run (choose surroundings options) { tree, input := input.toList } with
    | .error _ _ => none
    | .ok choice opened =>
      match planned surroundings options choice opened.tree with
      | .error _ => none
      | .ok (request, graph, command) =>
        if options.dryRun || options.withoutCopy ||
            !(encoded surroundings request graph command).1.isOk then none
        else (request.output.withExtension? ".json").map fun path =>
          ⟨options, choice, opened, request, graph, command, path⟩

/-- The stages of a session that saves a copy. -/
structure Saves (surroundings : Surroundings) (tree : FileTree) (input : String)
    (arguments : List String) (saving : Saving) : Prop where
  read : Options.read arguments = .ok saving.options
  chosen : EStateM.run (choose surroundings saving.options) { tree, input := input.toList } =
    .ok saving.choice saving.opened
  plan : planned surroundings saving.options saving.choice saving.opened.tree =
    .ok (saving.request, saving.graph, saving.command)
  real : saving.options.dryRun = false
  wanted : saving.options.withoutCopy = false
  returned : (encoded surroundings saving.request saving.graph saving.command).1.isOk = true
  named : saving.request.output.withExtension? ".json" = some saving.path

/-- A planned request is compiled from a project that was read from the episode's list. -/
theorem origin_of_planned {options : Options} {choice : Choice} {wanted : RenderRequest}
    {graph : Graph} {command : List String}
    (plan : planned surroundings options choice tree = .ok (wanted, graph, command)) :
    (Compilation.run (Compilation.compile (Catalogue.existence tree) wanted.transition
        wanted.transform wanted.project)).1 = .ok graph ∧
      wanted.project.Settled ∧
      wanted.project.base =
        Catalogue.episodeDirectory choice.root choice.project choice.episode := by
  obtain ⟨project, transform, given, rfl, ready⟩ := planned_eq_ok_iff.mp plan
  obtain ⟨_, compiled, ready⟩ := except_bind_eq_ok_iff.mp ready
  obtain ⟨_, _, ready⟩ := except_bind_eq_ok_iff.mp ready
  cases except_pure_eq_ok_iff.mp ready
  refine ⟨compiled, ?_⟩
  obtain ⟨read, load, given⟩ := except_bind_eq_ok_iff.mp given
  have same : read = project := by
    split at given
    · cases given
      rfl
    · obtain ⟨_, _, given⟩ := except_bind_eq_ok_iff.mp given
      cases given
      rfl
  subst same
  obtain ⟨_, _, load⟩ := except_bind_eq_ok_iff.mp load
  obtain ⟨_, _, load⟩ := except_bind_eq_ok_iff.mp load
  obtain ⟨_, _, load⟩ := except_bind_eq_ok_iff.mp load
  exact Project.settled_of_ofValue load

theorem saving?_eq_some_iff :
    saving? surroundings tree input arguments = some saving ↔
      Saves surroundings tree input arguments saving := by
  constructor
  · intro given
    unfold saving? at given
    split at given
    · cases given
    next options read =>
    split at given
    · cases given
    next choice opened chosen =>
    split at given
    · cases given
    next request graph command plan =>
    split at given
    · cases given
    next reached =>
    obtain ⟨path, named, rfl⟩ := Option.map_eq_some_iff.mp given
    simp only [Bool.or_eq_true, Bool.not_eq_true', not_or, Bool.not_eq_true,
      Bool.not_eq_false] at reached
    exact ⟨read, chosen, plan, reached.1.1, reached.1.2, reached.2, named⟩
  · intro saves
    unfold saving?
    simp only [saves.read, saves.chosen, saves.plan, saves.real, saves.wanted, saves.returned,
      saves.named]
    rfl

/-- There is one way in which a session saves its copy. -/
theorem Saves.unique {other : Saving} (saves : Saves surroundings tree input arguments saving)
    (again : Saves surroundings tree input arguments other) : saving = other :=
  Option.some.inj
    ((saving?_eq_some_iff.mpr saves).symm.trans (saving?_eq_some_iff.mpr again))

/-- What is computed of the saving holds of it. -/
theorem exists_saves {test : Saving → Bool}
    (holds : (saving? surroundings tree input arguments).any test = true) :
    ∃ saving, Saves surroundings tree input arguments saving ∧ test saving = true := by
  obtain ⟨saving, given, passed⟩ := (Option.any_eq_true _ _).mp holds
  exact ⟨saving, saving?_eq_some_iff.mp given, passed⟩

theorem copied_of_finished {options : Options} {wanted : RenderRequest} {deeds : SessionDeeds}
    {trace : SessionTrace} {outcome : Except Failure Int} {graph : Graph} {command : List String}
    {path : Path} (finished : Finished surroundings options wanted deeds trace outcome)
    (ready : Rendering.prepared (Catalogue.existence deeds.tree) wanted = .ok (graph, command))
    (real : wanted.dryRun = false)
    (returned : (encoded surroundings wanted graph command).1.isOk = true)
    (kept : options.withoutCopy = false) (named : wanted.output.withExtension? ".json" = some path) :
    outcome = (Catalogue.saveCopy deeds.tree wanted.project path).1.map (fun _ => 0) ∧
      trace.deeds = { deeds with
        tree := (Catalogue.saveCopy deeds.tree wanted.project path).2
        encoder := some (encoded surroundings wanted graph command).2
        copy := some path } := by
  cases finished with
  | unprepared failed _ => cases ready.symm.trans failed
  | shown _ dry _ _ => cases real.symm.trans dry
  | unrendered same _ broken _ =>
    cases ready.symm.trans same
    rw [broken] at returned
    cases returned
  | uncopied _ _ _ unwanted _ => cases kept.symm.trans unwanted
  | nameless _ _ _ _ nameless _ => cases named.symm.trans nameless
  | copied same _ _ _ other deeds =>
    cases ready.symm.trans same
    cases named.symm.trans other
    exact ⟨rfl, deeds⟩

/-- A session that saves a copy does so last, and ends as the saving does. -/
theorem ended_of_saves (saves : Saves surroundings tree input arguments saving) :
    let ended := start surroundings tree input arguments
    let saved := Catalogue.saveCopy saving.opened.tree saving.request.project saving.path
    ended.1 = saved.1.map (fun _ => 0) ∧ ended.2.deeds = { saving.opened.deeds with
      tree := saved.2
      encoder := some (encoded surroundings saving.request saving.graph saving.command).2
      copy := some saving.path } := by
  have course := course_of_start surroundings tree input saves.read
  obtain ⟨options, choice, opened, wanted, graph, command, path⟩ := saving
  obtain ⟨-, chosen, plan, real, kept, returned, named⟩ := saves
  dsimp only at *
  rw [chosen] at course
  obtain ⟨_, _, given, rfl, ready⟩ := planned_eq_ok_iff.mp plan
  have finished := finished_of_course course.2 given
  have ended := copied_of_finished finished ready real returned kept named
  have same : opened.deeds.tree = opened.tree := rfl
  rwa [same] at ended

theorem copy_of_saves (saves : Saves surroundings tree input arguments saving) :
    (start surroundings tree input arguments).2.copy = some saving.path :=
  congrArg SessionDeeds.copy (ended_of_saves saves).2

/-- Whether the whole copy can be saved. -/
def Saving.fits (saving : Saving) : Bool :=
  (saving.opened.tree.write saving.path
      (.text (Document.written saving.request.project.toValue))).isOk &&
    (Document.pieces saving.request.project.toValue).all Text.isStorable

theorem success_of_fits (saves : Saves surroundings tree input arguments saving)
    (fits : saving.fits = true) : (start surroundings tree input arguments).1 = .ok 0 := by
  rw [(ended_of_saves saves).1,
    Catalogue.saveCopy_eq_ok_iff.mpr (Bool.and_eq_true_iff.mp fits)]
  rfl

/-- A session tries to save a copy exactly where it can be computed that it will. -/
theorem copy_of_start (surroundings : Surroundings) (tree : FileTree) (input : String)
    (arguments : List String) :
    (start surroundings tree input arguments).2.copy =
      (saving? surroundings tree input arguments).map (·.path) := by
  cases given : saving? surroundings tree input arguments with
  | some saving => exact copy_of_saves (saving?_eq_some_iff.mp given)
  | none =>
    cases read : Options.read arguments with
    | error cause => rw [start, read, Option.map_none]
    | ok options =>
      have course := course_of_start surroundings tree input read
      dsimp only at course
      split at course
      · next failure after _ =>
        rw [course.1]
        rcases course.2 with same | opened
        · exact congrArg SessionDeeds.copy same
        · exact opened.fresh.2
      · next choice opened chosen =>
        have none := copied_iff_of_course course.1.fresh.2 course.2
        refine Option.not_isSome_iff_eq_none.mp fun some => ?_
        obtain ⟨real, wanted, request, graph, command, result, plan, returned, named⟩ := none.mp some
        obtain ⟨path, named⟩ := Option.isSome_iff_exists.mp
          ((Path.isSome_withExtension?_iff request.output ".json").mpr named)
        have saves : Saves surroundings tree input arguments
            ⟨options, choice, opened, request, graph, command, path⟩ :=
          ⟨read, chosen, plan, real, wanted, by rw [returned]; rfl, named⟩
        cases given.symm.trans (saving?_eq_some_iff.mpr saves)

end Session

end Montage
