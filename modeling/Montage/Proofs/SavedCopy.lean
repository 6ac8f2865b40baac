import Montage.Proofs.Rebuilding
import Montage.Proofs.Saving

/-!
# What a saved copy holds

The encoder is run for the project as its script has changed it, while the copy holds the project as
it was loaded (`Session.Reread`). Reading the copy gives what the loaded project is compiled to; this
is what the encoder was run for wherever the script leaves the cuts, the fades and the frame size.
Main statement: `reread_of_start`.
-/

namespace Montage

/-- Two projects that are built in the same way. -/
structure Project.SameEdits (project other : Project) : Prop where
  cuts : other.cuts = project.cuts
  fade : other.fade = project.fade
  frame : other.frame = project.frame
  base : other.base = project.base

/-- The place where a project was found has no part in its graph. -/
theorem Compilation.build_eq_of_sameEdits {project other : Project}
    (same : project.SameEdits other) (existence : ExistenceCheck) (transition : Transition) :
    build existence transition other = build existence transition project := by
  obtain ⟨cuts, fade, frame, base, _, _⟩ := project
  obtain ⟨_, _, _, _, _, _⟩ := other
  obtain ⟨rfl, rfl, rfl, rfl⟩ := same
  rfl

/-- The change of a request, if there is one, leaves the edits of its project. -/
def RenderRequest.LeavesEdits (request : RenderRequest) : Prop :=
  ∀ change changed, request.transform = some change → change request.project = .ok changed →
    request.project.SameEdits changed

namespace Compilation

variable {existence wider : ExistenceCheck} {transition : Transition}

theorem run_eq_ok_iff {α : Type} {step : Drafting α} {value : α} :
    (run step).1 = .ok value ↔ ∃ after, step.run {} = .ok value after := by
  unfold run
  cases step.run {} with
  | ok result after => simp
  | error failure after => simp

/-- A request whose change leaves the edits is compiled as if it had no change. -/
theorem compiled_of_leavesEdits {request : RenderRequest} {graph : Graph}
    (leaves : request.LeavesEdits) (covers : wider.Covers existence)
    (compiled : (run (compile existence transition request.transform request.project)).1 =
      .ok graph) :
    (run (compile wider transition none request.project)).1 = .ok graph := by
  obtain ⟨after, compiled⟩ := run_eq_ok_iff.mp compiled
  -- A change is reported before the build, which the graph does not depend on.
  obtain ⟨draft, empty, built⟩ : ∃ draft : Draft, draft.graph = {} ∧
      (build existence transition request.project).run draft = .ok graph after := by
    cases transform : request.transform with
    | none =>
      rw [transform] at compiled
      exact ⟨{}, rfl, compiled⟩
    | some change =>
      rw [transform] at compiled
      obtain ⟨changed, _, changing, compiled⟩ := run_bind_eq_ok_iff.mp compiled
      obtain ⟨given, rfl⟩ := run_lift_eq_ok_iff.mp changing
      obtain ⟨_, reported, reporting, built⟩ := run_bind_eq_ok_iff.mp compiled
      rw [build_eq_of_sameEdits (leaves change changed transform given)] at built
      exact ⟨reported, Drafting.graph_of_run_report reporting, built⟩
  obtain ⟨later, again, -⟩ :=
    repeats_build covers transition request.project draft {} graph after empty.symm built
  exact run_eq_ok_iff.mpr ⟨later, again⟩

end Compilation

/-- Every file that is found before a copy is saved is found afterwards. -/
theorem Catalogue.covers_saveCopy (tree : FileTree) (project : Project) (path : Path) :
    (existence (saveCopy tree project path).2).Covers (existence tree) := by
  intro base id found
  obtain ⟨media, named, found⟩ := except_bind_eq_ok_iff.mp found
  rw [onPath_eq_ok_iff] at found
  refine except_bind_eq_ok_iff.mpr ⟨media, named, onPath_eq_ok_iff.mpr ?_⟩
  rcases write_of_saveCopy tree project path with
    written | ⟨same, -⟩
  · exact FileTree.hasEntry_write written found
  · rwa [same]

namespace Session

variable {surroundings : Surroundings} {options : Options} {choice : Choice} {tree : FileTree}

/-- What a session saves is read back for the same episode. -/
theorem Saves.read_back {input : String} {arguments : List String} {saving : Saving}
    (saves : Saves surroundings tree input arguments saving) :
    Project.ofValue saving.request.project.toValue (Catalogue.episodeDirectory saving.choice.root
        saving.choice.project saving.choice.episode) =
      .ok { saving.request.project with directory := .null, episode := .null } := by
  obtain ⟨-, settled, base⟩ := origin_of_planned saves.plan
  rw [← base]
  exact Project.ofValue_toValue_of_settled settled

/-- What the copy of a session is, and what becomes of it. -/
structure Reread (surroundings : Surroundings) (saving : Saving) (trace : SessionTrace) :
    Prop where
  /-- The encoder was run with the command for the graph that the changed project compiled to. -/
  executed : trace.encoder =
    some (encoded surroundings saving.request saving.graph saving.command).2
  compiled : (Compilation.run (Compilation.compile (Catalogue.existence saving.opened.tree)
    saving.request.transition saving.request.transform saving.request.project)).1 =
      .ok saving.graph
  /-- The copy holds the project as it was loaded. -/
  text : trace.tree.read saving.path = .ok (.text (Catalogue.copyText saving.request.project))
  /-- All files are found that were found before. -/
  found : (Catalogue.existence trace.tree).Covers (Catalogue.existence saving.opened.tree)
  /-- It is read back for the same episode, and compiles as the loaded project does; where its
  change leaves the edits, it compiles to the graph that the encoder was run for. -/
  again : ∃ again, Project.ofValue saving.request.project.toValue
      (Catalogue.episodeDirectory saving.choice.root saving.choice.project saving.choice.episode) =
        .ok again ∧
    (∀ existence transition, Compilation.compile existence transition none again =
      Compilation.compile existence transition none saving.request.project) ∧
    (saving.request.LeavesEdits →
      ∀ existence, existence.Covers (Catalogue.existence saving.opened.tree) →
        (Compilation.run (Compilation.compile existence saving.request.transition none again)).1 =
          .ok saving.graph)

/-- A session that ends well and has a copy saved the edit list that it had loaded. The copy is read
back, and compiles to the graph that the encoder was run for unless the project's script changed
the edits. -/
theorem reread_of_start (surroundings : Surroundings) (tree : FileTree) (input : String)
    (arguments : List String) {path : Path}
    (success : (start surroundings tree input arguments).1 = .ok 0)
    (copied : (start surroundings tree input arguments).2.copy = some path) :
    ∃ saving, Saves surroundings tree input arguments saving ∧ saving.path = path ∧
      Reread surroundings saving (start surroundings tree input arguments).2 := by
  rw [copy_of_start, Option.map_eq_some_iff] at copied
  obtain ⟨saving, given, named⟩ := copied
  have saves := saving?_eq_some_iff.mp given
  obtain ⟨outcome, deeds⟩ := ended_of_saves saves
  have treeSame := congrArg SessionDeeds.tree deeds
  obtain ⟨compiled, -, -⟩ := origin_of_planned saves.plan
  have saved : (Catalogue.saveCopy saving.opened.tree saving.request.project saving.path).1 =
      .ok () := by
    rw [success] at outcome
    cases saved : (Catalogue.saveCopy saving.opened.tree saving.request.project saving.path).1 with
    | ok done => rfl
    | error failure =>
      rw [saved] at outcome
      cases outcome
  refine ⟨saving, saves, named, congrArg SessionDeeds.encoder deeds, compiled, ?_, ?_,
    _, saves.read_back, fun _ _ => rfl, ?_⟩
  · exact (congrArg (FileTree.read · saving.path) treeSame).trans (Catalogue.read_saveCopy saved)
  · rw [show (start surroundings tree input arguments).2.tree = _ from treeSame]
    exact Catalogue.covers_saveCopy _ _ _
  · exact fun leaves existence covers => Compilation.compiled_of_leavesEdits leaves covers compiled

/-- The sample with a script that keeps the first cut. -/
def scriptTree : FileTree :=
  { sampleTree with entries := sampleTree.entries ++
    [(["work", "show", "script.py"], .file (.text (Script.replacingCuts "project.cuts[:1]")))] }

/-- Without a script the copy compiles to the graph that the encoder was run for. -/
theorem reread_sampleTree : ∃ saving,
    Saves sampleSurroundings sampleTree "" (sampleArguments "clip.mp4") saving ∧
      saving.path = ⟨0, ["clip.json"]⟩ ∧ saving.request.LeavesEdits ∧
      Reread sampleSurroundings saving
        (start sampleSurroundings sampleTree "" (sampleArguments "clip.mp4")).2 := by
  have fitting : (saving? sampleSurroundings sampleTree "" (sampleArguments "clip.mp4")).any
      (fun saving => saving.path = ⟨0, ["clip.json"]⟩ ∧ saving.fits ∧
        saving.request.transform.isNone) = true := by decide +kernel
  obtain ⟨saving, saves, fitting⟩ := exists_saves fitting
  obtain ⟨path, fits, unchanged⟩ := of_decide_eq_true fitting
  have copied : (start sampleSurroundings sampleTree "" (sampleArguments "clip.mp4")).2.copy =
      some ⟨0, ["clip.json"]⟩ := path ▸ copy_of_saves saves
  obtain ⟨other, again, -, reread⟩ := reread_of_start sampleSurroundings sampleTree ""
    (sampleArguments "clip.mp4") (success_of_fits saves fits) copied
  obtain rfl := saves.unique again
  refine ⟨saving, saves, path, ?_, reread⟩
  intro change changed transform
  rw [transform] at unchanged
  cases unchanged

/-- With the script, the copy compiles to two inputs where the encoder was given one. -/
theorem changed_scriptTree : ∃ saving again other,
    Saves sampleSurroundings scriptTree "" (sampleArguments "clip.mp4") saving ∧
      (start sampleSurroundings scriptTree "" (sampleArguments "clip.mp4")).1 = .ok 0 ∧
      (start sampleSurroundings scriptTree "" (sampleArguments "clip.mp4")).2.copy =
        some saving.path ∧
      Project.ofValue saving.request.project.toValue (Catalogue.episodeDirectory
        saving.choice.root saving.choice.project saving.choice.episode) = .ok again ∧
      (Compilation.run (Compilation.compile (Catalogue.existence saving.opened.tree)
        saving.request.transition none again)).1 = .ok other ∧
      other.inputs.length = 2 ∧ saving.graph.inputs.length = 1 := by
  have differing : (saving? sampleSurroundings scriptTree "" (sampleArguments "clip.mp4")).any
      (fun saving => saving.fits ∧ saving.graph.inputs.length = 1 ∧
        (Compilation.run (Compilation.compile (Catalogue.existence saving.opened.tree)
          saving.request.transition none saving.request.project)).1.toOption.any
            (·.inputs.length == 2)) = true := by decide +kernel
  obtain ⟨saving, saves, differing⟩ := exists_saves differing
  obtain ⟨fits, one, compiled⟩ := of_decide_eq_true differing
  obtain ⟨other, compiled, two⟩ := (Option.any_eq_true _ _).mp compiled
  exact ⟨saving, _, other, saves, success_of_fits saves fits, copy_of_saves saves,
    saves.read_back, except_toOption_eq_some_iff.mp compiled, beq_iff_eq.mp two, one⟩

end Session

end Montage
