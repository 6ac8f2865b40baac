import Montage.Proofs.SessionCourse

/-!
# What comes of a session

A session ends with zero if its command was shown or the encoder ended well. It ends with one if the
user can mend what it met: an episode that is not loaded, an edit list that is not compiled, an
encoder that fails. The encoder is started for nothing but a compiled request that is to be carried
out, and the copy is written after nothing but a run that returned (`Session.Accounted`). Main
statement: `accounted_of_start`.
-/

namespace Montage.Session

variable {surroundings : Surroundings} {options : Options} {choice : Choice}
  {deeds : SessionDeeds} {tree : FileTree} {trace : SessionTrace} {outcome : Except Failure Int}

/-- The request of a session with its graph and its command. -/
def planned (surroundings : Surroundings) (options : Options) (choice : Choice) (tree : FileTree) :
    Except Failure (RenderRequest × Graph × List String) := do
  let (project, transform) ← loaded surroundings options choice tree
  let request := request surroundings options choice.settings tree project transform
  let (graph, command) ← Rendering.prepared (Catalogue.existence tree) request
  return (request, graph, command)

theorem planned_eq_ok_iff {wanted : RenderRequest} {graph : Graph} {command : List String} :
    planned surroundings options choice tree = .ok (wanted, graph, command) ↔
      ∃ project transform, loaded surroundings options choice tree = .ok (project, transform) ∧
        request surroundings options choice.settings tree project transform = wanted ∧
        Rendering.prepared (Catalogue.existence tree) wanted = .ok (graph, command) := by
  constructor
  · intro ready
    obtain ⟨⟨project, transform⟩, given, ready⟩ := except_bind_eq_ok_iff.mp ready
    obtain ⟨⟨graph, command⟩, prepared, ready⟩ := except_bind_eq_ok_iff.mp ready
    cases except_pure_eq_ok_iff.mp ready
    exact ⟨project, transform, given, rfl, prepared⟩
  · rintro ⟨project, transform, given, rfl, prepared⟩
    refine except_bind_eq_ok_iff.mpr ⟨_, given, ?_⟩
    exact except_bind_eq_ok_iff.mpr ⟨_, prepared, rfl⟩

theorem planned_of_prepared {project : Project} {transform : Option ProjectTransform}
    {graph : Graph} {command : List String}
    (given : loaded surroundings options choice tree = .ok (project, transform))
    (ready : Rendering.prepared (Catalogue.existence tree)
      (request surroundings options choice.settings tree project transform) =
        .ok (graph, command)) :
    planned surroundings options choice tree =
      .ok (request surroundings options choice.settings tree project transform, graph, command) :=
  planned_eq_ok_iff.mpr ⟨project, transform, given, rfl, ready⟩

/-- What a session comes to that has made its choices. -/
structure Accounted (surroundings : Surroundings) (options : Options) (choice : Choice)
    (tree : FileTree) (outcome : Except Failure Int) (trace : SessionTrace) : Prop where
  success : outcome = .ok 0 → ∃ request graph command,
    planned surroundings options choice tree = .ok (request, graph, command) ∧
      (options.dryRun = true ∧
          (∃ printed, trace.output = printed ++ (" ".intercalate command ++ "\n")) ∨
        options.dryRun = false ∧ trace.encoder.isSome ∧ surroundings.process.code = 0)
  unloaded : ∀ failure, loaded surroundings options choice tree = .error failure →
    outcome = if failure.isOfFiles ∨ failure.isOfValue ∨ failure.isOfMember then .ok 1
      else .error failure
  unprepared : ∀ project transform cause,
    loaded surroundings options choice tree = .ok (project, transform) →
      Rendering.prepared (Catalogue.existence tree)
        (request surroundings options choice.settings tree project transform) =
          .error (.edit cause) → outcome = .ok 1
  failed : ∀ request graph command cause,
    planned surroundings options choice tree = .ok (request, graph, command) →
      options.dryRun = false →
      (encoded surroundings request graph command).1 = .error (.encoder cause) → outcome = .ok 1
  spawned : trace.encoder.isSome → options.dryRun = false ∧
    ∃ request graph command,
      planned surroundings options choice tree = .ok (request, graph, command)
  copied : trace.copy.isSome ↔ options.dryRun = false ∧ options.withoutCopy = false ∧
    ∃ request graph command result,
      planned surroundings options choice tree = .ok (request, graph, command) ∧
        (encoded surroundings request graph command).1 = .ok result ∧
        request.output.components ≠ []
  files : outcome = .ok 1 ∨ options.dryRun = true → trace.copy = none ∧ trace.tree = tree

theorem finished_of_course (course : Course surroundings options choice deeds trace outcome)
    {project : Project} {transform : Option ProjectTransform}
    (given : loaded surroundings options choice deeds.tree = .ok (project, transform)) :
    Finished surroundings options
      (request surroundings options choice.settings deeds.tree project transform) deeds trace
      outcome := by
  cases course with
  | unloaded failed _ => cases failed.symm.trans given
  | finished same finished =>
    cases given.symm.trans same
    exact finished

theorem unloaded_of_course (course : Course surroundings options choice deeds trace outcome)
    {failure : Failure}
    (failed : loaded surroundings options choice deeds.tree = .error failure) :
    outcome = if failure.isOfFiles ∨ failure.isOfValue ∨ failure.isOfMember then .ok 1
      else .error failure := by
  cases course with
  | unloaded same _ =>
    cases failed.symm.trans same
    simp [isLoadFailure, or_assoc]
  | finished given _ => cases failed.symm.trans given

theorem unprepared_of_finished {wanted : RenderRequest} {cause : EditError}
    (finished : Finished surroundings options wanted deeds trace outcome)
    (failed : Rendering.prepared (Catalogue.existence deeds.tree) wanted = .error (.edit cause)) :
    outcome = .ok 1 := by
  cases finished with
  | unprepared same _ =>
    cases failed.symm.trans same
    rfl
  | shown ready _ _ _ | unrendered ready _ _ _ | uncopied ready _ _ _ _ | nameless ready _ _ _ _ _
  | copied ready _ _ _ _ _ => cases failed.symm.trans ready

theorem failed_of_finished {wanted : RenderRequest} {graph : Graph} {command : List String}
    {cause : EncoderError}
    (finished : Finished surroundings options wanted deeds trace outcome)
    (ready : Rendering.prepared (Catalogue.existence deeds.tree) wanted = .ok (graph, command))
    (real : wanted.dryRun = false)
    (failed : (encoded surroundings wanted graph command).1 = .error (.encoder cause)) :
    outcome = .ok 1 := by
  cases finished with
  | unprepared other _ => cases ready.symm.trans other
  | shown _ dry _ _ => cases real.symm.trans dry
  | unrendered same _ broken _ =>
    cases ready.symm.trans same
    cases failed.symm.trans broken
    rfl
  | uncopied same _ returned _ _ | nameless same _ returned _ _ _ | copied same _ returned _ _ _ =>
    cases ready.symm.trans same
    cases failed.symm.trans returned

/-- A failure that is met never ends a session with zero. -/
theorem exit_ne_zero (known : Bool) (failure : Failure) :
    (if known then .ok 1 else .error failure : Except Failure Int) ≠ .ok 0 := by
  cases known <;> simp

theorem success_of_course (course : Course surroundings options choice deeds trace outcome)
    (zero : outcome = .ok 0) : ∃ request graph command,
    planned surroundings options choice deeds.tree = .ok (request, graph, command) ∧
      (options.dryRun = true ∧
          (∃ printed, trace.output = printed ++ (" ".intercalate command ++ "\n")) ∨
        options.dryRun = false ∧ trace.encoder.isSome ∧ surroundings.process.code = 0) := by
  cases course with
  | unloaded _ _ => exact absurd zero (exit_ne_zero _ _)
  | finished given finished =>
    cases finished with
    | unprepared _ _ => exact absurd zero (exit_ne_zero _ _)
    | shown ready dry printed _ =>
      exact ⟨_, _, _, planned_of_prepared given ready, .inl ⟨dry, _, printed⟩⟩
    | unrendered _ _ _ _ => exact absurd zero (exit_ne_zero _ _)
    | uncopied ready real returned _ same =>
      have encoder : trace.encoder = _ := congrArg (·.encoder) same
      exact ⟨_, _, _, planned_of_prepared given ready, .inr ⟨real, by rw [encoder]; rfl,
        Rendering.code_of_encoding ready returned⟩⟩
    | nameless _ _ _ _ _ _ => cases zero
    | copied ready real returned _ _ same =>
      have encoder : trace.encoder = _ := congrArg (·.encoder) same
      exact ⟨_, _, _, planned_of_prepared given ready, .inr ⟨real, by rw [encoder]; rfl,
        Rendering.code_of_encoding ready returned⟩⟩

theorem spawned_of_course (fresh : deeds.encoder = none)
    (course : Course surroundings options choice deeds trace outcome)
    (spawned : trace.encoder.isSome) : options.dryRun = false ∧ ∃ request graph command,
      planned surroundings options choice deeds.tree = .ok (request, graph, command) := by
  have idle {other : SessionDeeds} (none : other.encoder = none) (same : trace.deeds = other) :
      False := by
    have encoder : trace.encoder = other.encoder := congrArg (·.encoder) same
    rw [encoder, none] at spawned
    cases spawned
  cases course with
  | unloaded _ same => exact (idle fresh same).elim
  | finished given finished =>
    cases finished with
    | unprepared _ same => exact (idle rfl same).elim
    | shown _ _ _ same => exact (idle rfl same).elim
    | unrendered ready real _ _ | uncopied ready real _ _ _ | nameless ready real _ _ _ _
    | copied ready real _ _ _ _ => exact ⟨real, _, _, _, planned_of_prepared given ready⟩

theorem copied_iff_of_finished {wanted : RenderRequest} (fresh : deeds.copy = none)
    (finished : Finished surroundings options wanted deeds trace outcome) :
    trace.copy.isSome ↔ wanted.dryRun = false ∧ options.withoutCopy = false ∧
      ∃ graph command result,
        Rendering.prepared (Catalogue.existence deeds.tree) wanted = .ok (graph, command) ∧
        (encoded surroundings wanted graph command).1 = .ok result ∧
        wanted.output.components ≠ [] := by
  have none {other : SessionDeeds} (same : trace.deeds = other) (uncopied : other.copy = none) :
      ¬ trace.copy.isSome := by
    have copy : trace.copy = other.copy := congrArg (·.copy) same
    rw [copy, uncopied]
    exact Bool.false_ne_true
  cases finished with
  | unprepared failed same =>
    refine iff_of_false (none same fresh) ?_
    rintro ⟨-, -, _, _, _, ready, -, -⟩
    cases ready.symm.trans failed
  | shown _ dry _ same =>
    refine iff_of_false (none same fresh) ?_
    rintro ⟨real, -⟩
    cases dry.symm.trans real
  | unrendered ready _ broken same =>
    refine iff_of_false (none same fresh) ?_
    rintro ⟨-, -, _, _, _, other, returned, -⟩
    cases ready.symm.trans other
    cases broken.symm.trans returned
  | uncopied _ _ _ unwanted same =>
    refine iff_of_false (none same fresh) ?_
    rintro ⟨-, wanted, -⟩
    cases unwanted.symm.trans wanted
  | nameless _ _ _ _ nameless same =>
    refine iff_of_false (none same fresh) ?_
    rintro ⟨-, -, _, _, _, -, -, named⟩
    have isSome := (Path.isSome_withExtension?_iff wanted.output ".json").mpr named
    rw [nameless] at isSome
    cases isSome
  | copied ready real returned kept named same =>
    have copy : trace.copy = _ := congrArg (·.copy) same
    refine iff_of_true (by rw [copy]; rfl) ⟨real, kept, _, _, _, ready, returned, ?_⟩
    rw [← Path.isSome_withExtension?_iff, named]
    rfl

theorem copied_iff_of_course (fresh : deeds.copy = none)
    (course : Course surroundings options choice deeds trace outcome) :
    trace.copy.isSome ↔ options.dryRun = false ∧ options.withoutCopy = false ∧
      ∃ request graph command result,
        planned surroundings options choice deeds.tree = .ok (request, graph, command) ∧
        (encoded surroundings request graph command).1 = .ok result ∧
        request.output.components ≠ [] := by
  cases course with
  | unloaded failed same =>
    have copy : trace.copy = deeds.copy := congrArg (·.copy) same
    refine iff_of_false (by rw [copy, fresh]; exact Bool.false_ne_true) ?_
    rintro ⟨-, -, _, _, _, _, plan, -, -⟩
    obtain ⟨_, _, given, -⟩ := planned_eq_ok_iff.mp plan
    cases failed.symm.trans given
  | finished given finished =>
    rw [copied_iff_of_finished fresh finished]
    refine and_congr Iff.rfl (and_congr Iff.rfl ⟨?_, ?_⟩)
    · rintro ⟨graph, command, result, ready, returned, named⟩
      exact ⟨_, graph, command, result, planned_of_prepared given ready, returned,
        named⟩
    · rintro ⟨_, graph, command, result, plan, returned, named⟩
      obtain ⟨_, _, other, rfl, ready⟩ := planned_eq_ok_iff.mp plan
      cases given.symm.trans other
      exact ⟨graph, command, result, ready, returned, named⟩

/-- Only a session that ends in its copy changes a file after its log was opened. -/
theorem files_of_course (course : Course surroundings options choice deeds trace outcome)
    (early : outcome = .ok 1 ∨ options.dryRun = true) :
    trace.copy = deeds.copy ∧ trace.tree = deeds.tree := by
  have kept {other : SessionDeeds} (same : trace.deeds = other) (copy : other.copy = deeds.copy)
      (files : other.tree = deeds.tree) : trace.copy = deeds.copy ∧ trace.tree = deeds.tree := by
    subst same
    exact ⟨copy, files⟩
  cases course with
  | unloaded _ same => exact kept same rfl rfl
  | finished _ finished =>
    cases finished with
    | unprepared _ same | shown _ _ _ same | unrendered _ _ _ same | uncopied _ _ _ _ same
    | nameless _ _ _ _ _ same => exact kept same rfl rfl
    | @copied _ _ _ path _ real _ _ _ _ =>
      rcases early with one | dry
      · generalize (Catalogue.saveCopy deeds.tree _ path).1 = saved at one
        cases saved <;> cases one
      · cases dry.symm.trans real

theorem accounted_of_course (encoder : deeds.encoder = none) (copy : deeds.copy = none)
    (course : Course surroundings options choice deeds trace outcome) :
    Accounted surroundings options choice deeds.tree outcome trace where
  success := success_of_course course
  unloaded _ failed := unloaded_of_course course failed
  unprepared _ _ _ given failed := unprepared_of_finished (finished_of_course course given) failed
  failed wanted graph command cause plan real failed := by
    obtain ⟨_, _, given, rfl, ready⟩ := planned_eq_ok_iff.mp plan
    exact failed_of_finished (finished_of_course course given) ready real failed
  spawned := spawned_of_course encoder course
  copied := copied_iff_of_course copy course
  files early := by
    obtain ⟨same, files⟩ := files_of_course course early
    exact ⟨same.trans copy, files⟩

/-- Every session whose options are read ends without its choices, having done nothing but open its
log if that, or it is accounted for: what it ends with, when the encoder is started, when the copy
is written, and that nothing else is written beside the log. -/
theorem accounted_of_start (surroundings : Surroundings) (tree : FileTree) (input : String)
    {arguments : List String} {options : Options} (read : Options.read arguments = .ok options) :
    let ended := start surroundings tree input arguments
    match EStateM.run (choose surroundings options) { tree, input := input.toList } with
    | .error failure after => ended = (.error failure, after) ∧ Harmless tree after
    | .ok choice opened => LogOpen tree opened ∧
        Accounted surroundings options choice opened.tree ended.1 ended.2 := by
  intro ended
  have course := course_of_start surroundings tree input read
  dsimp only at course
  split
  · next failure after chosen =>
    rw [chosen] at course
    exact course
  · next choice opened chosen =>
    rw [chosen] at course
    obtain ⟨logged, course⟩ := course
    exact ⟨logged, accounted_of_course logged.fresh.1 logged.fresh.2 course⟩

/-- An edit list with two cuts. -/
def sampleList : String :=
  "\x7b\"cuts\": [" ++
    "\x7b\"video\": \x7b\"id\": \"day\"\x7d, \"start\": 0, \"end\": 5\x7d, " ++
    "\x7b\"video\": \x7b\"id\": \"night\"\x7d, \"start\": 2, \"end\": 9\x7d]\x7d"

/-- Below the working directory the project `show` has the episode `pilot` with that edit list, and
both files of it. -/
def sampleTree : FileTree where
  working := ["work"]
  entries := [
    (["work"], .directory),
    (["work", "show"], .directory),
    (["work", "show", "pilot"], .directory),
    (["work", "show", "pilot", "day"], .file .binary),
    (["work", "show", "pilot", "night"], .file .binary),
    (["work", "show", "pilot", "config.json"], .file (.text sampleList))]

/-- The arguments that render the episode to a path. -/
def sampleArguments (output : String) : List String :=
  ["--projects-dir", ".", "--project", "show", "--episode", "pilot", "--output", output]

def sampleOptions (output : String) : Options where
  projectsDirectory := some (.text ".")
  project := some (.text "show")
  episode := some (.text "pilot")
  output := some (.text output)

/-- An encoder that ends well. -/
def sampleSurroundings : Surroundings where
  process := EncoderRun.promptProcess

theorem accounted_sampleTree : ∃ choice opened,
    EStateM.run (choose sampleSurroundings (sampleOptions "clip.mp4")) { tree := sampleTree } =
      .ok choice opened ∧
    LogOpen sampleTree opened ∧
    Accounted sampleSurroundings (sampleOptions "clip.mp4") choice opened.tree
      (start sampleSurroundings sampleTree "" (sampleArguments "clip.mp4")).1
      (start sampleSurroundings sampleTree "" (sampleArguments "clip.mp4")).2 := by
  have read : Options.read (sampleArguments "clip.mp4") = .ok (sampleOptions "clip.mp4") := by
    decide +kernel
  have accounted := accounted_of_start sampleSurroundings sampleTree "" read
  have succeeds : (match EStateM.run (choose sampleSurroundings (sampleOptions "clip.mp4"))
      { tree := sampleTree } with
    | .ok _ _ => true
    | .error _ _ => false) = true := by decide +kernel
  have nothing : "".toList = [] := rfl
  rw [nothing] at accounted
  cases chosen : EStateM.run (choose sampleSurroundings (sampleOptions "clip.mp4"))
      { tree := sampleTree } with
  | error failure after =>
    rw [chosen] at succeeds
    cases succeeds
  | ok choice opened =>
    rw [chosen] at accounted
    exact ⟨choice, opened, rfl, accounted⟩

/-- An output without a name has no copy, though its encoder was run and returned. -/
theorem uncopied_sampleTree :
    (start sampleSurroundings sampleTree "" (sampleArguments ".")).1 =
        .error (.defect .badValue) ∧
      (start sampleSurroundings sampleTree "" (sampleArguments ".")).2.copy = none ∧
      (sampleOptions ".").dryRun = false ∧ (sampleOptions ".").withoutCopy = false ∧
      ∃ choice opened request graph command result,
        EStateM.run (choose sampleSurroundings (sampleOptions ".")) { tree := sampleTree } =
          .ok choice opened ∧
        planned sampleSurroundings (sampleOptions ".") choice opened.tree =
          .ok (request, graph, command) ∧
        (encoded sampleSurroundings request graph command).1 = .ok result := by
  have returns : (match EStateM.run (choose sampleSurroundings (sampleOptions "."))
      { tree := sampleTree } with
    | .ok choice opened =>
      match planned sampleSurroundings (sampleOptions ".") choice opened.tree with
      | .ok (request, graph, command) =>
        (encoded sampleSurroundings request graph command).1.isOk
      | .error _ => false
    | .error _ _ => false) = true := by decide +kernel
  have ended : (fun ended : Except Failure Int × SessionTrace => (ended.1, ended.2.copy))
      (start sampleSurroundings sampleTree "" (sampleArguments ".")) =
        (.error (.defect .badValue), none) := by decide +kernel
  obtain ⟨outcome, copy⟩ := Prod.mk.inj ended
  refine ⟨outcome, copy, rfl, rfl, ?_⟩
  split at returns
  · next choice opened chosen =>
    split at returns
    · next request graph command ready =>
      cases returned : (encoded sampleSurroundings request graph command).1 with
      | ok result =>
        exact ⟨choice, opened, request, graph, command, result, chosen, ready, returned⟩
      | error failure =>
        rw [returned] at returns
        cases returns
    · cases returns
  · cases returns

end Montage.Session
