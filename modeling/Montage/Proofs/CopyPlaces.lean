import Montage.Proofs.Saving

/-!
# Where copies are saved

The copy of a session is called like its output, with another extension. It is written over the
output itself where that has this extension already, and over the edit list of the episode where the
output is beside it and called like it; every other file stays as it is
(`Session.Spares`). Main statement: `spared_of_start`.
-/

namespace Montage

namespace Path

variable {path copy : Path}

/-- The last name without its extension. -/
def stem (path : Path) : String :=
  String.ofList (path.name.toList.take (stemLength path.name.toList))

theorem stemLength_json {stem : List Char} (inside : stem ≠ []) :
    stemLength (stem ++ ".json".toList) = stem.length := by
  have behind : (stem ++ ".json".toList).reverse.takeWhile (· != '.') = ['n', 'o', 's', 'j'] := by
    simp
  have long : 0 < stem.length := List.length_pos_iff.mpr inside
  unfold stemLength
  rw [behind]
  simp [long]

theorem withExtension?_eq_some_iff {extension : String} :
    path.withExtension? extension = some copy ↔
      path.components ≠ [] ∧
        copy = ⟨path.root, path.components.dropLast ++ [path.stem ++ extension]⟩ := by
  unfold withExtension? stem name
  cases last : path.components.getLast? with
  | none => simp [List.getLast?_eq_none_iff.mp last]
  | some name =>
    have named : path.components ≠ [] := by
      rintro none
      rw [none] at last
      cases last
    simp [named, eq_comm]

/-- The last name has an extension with a name in front of it. -/
def IsNamed (path : Path) (extension : String) : Prop :=
  ∃ stem, stem ≠ "" ∧ path.name = stem ++ extension

/-- The copy is called like the output itself only where that has the extension of copies. -/
theorem name_eq_stem_append_iff : path.name = path.stem ++ ".json" ↔ path.IsNamed ".json" := by
  constructor
  · intro same
    refine ⟨path.stem, ?_, same⟩
    intro none
    rw [none] at same
    have whole : path.stem = ".json" := by
      unfold stem
      rw [same]
      decide
    rw [whole] at none
    exact absurd none (by decide)
  · rintro ⟨stem, inside, same⟩
    have own : path.stem = stem := by
      have inside : stem.toList ≠ [] := fun none => inside (String.toList_eq_nil_iff.mp none)
      unfold Path.stem
      rw [same, String.toList_append, stemLength_json inside, List.take_left, String.ofList_toList]
    rw [own, same]

instance (path : Path) : Decidable (path.IsNamed ".json") :=
  decidable_of_iff _ name_eq_stem_append_iff

/-- A copy is written to its output exactly if that has the extension of copies. -/
theorem copy_eq_iff (named : path.withExtension? ".json" = some copy) :
    copy = path ↔ path.IsNamed ".json" := by
  obtain ⟨inside, rfl⟩ := withExtension?_eq_some_iff.mp named
  rw [← name_eq_stem_append_iff]
  have whole := List.dropLast_append_getLast? path.name (getLast?_eq_name inside)
  constructor
  · intro same
    have components := congrArg components same
    dsimp only at components
    rw [← whole, List.dropLast_concat] at components
    exact (List.singleton_inj.mp (List.append_cancel_left components)).symm
  · intro same
    rw [← same, whole]

end Path

namespace FileTree

variable {tree : FileTree} {path : Path} {place : List String}

theorem place_eq_of_placeOf? {name : String} (last : path.components.getLast? = some name)
    (ahead : name ≠ "..") (found : tree.placeOf? path = some place) :
    ∃ directory, tree.directoryOf? path = some directory ∧ place = directory ++ [name] := by
  obtain ⟨destination, reached, rfl⟩ := placeOf?_eq_some_iff.mp found
  exact place_of_follow last ahead reached

/-- A path that is read ends with a name, below the directory of its other names. -/
theorem place_of_read {name : String} {content : FileContent}
    (last : path.components.getLast? = some name) (readable : tree.read path = .ok content) :
    ∃ directory, tree.directoryOf? path = some directory ∧
      tree.placeOf? path = some (directory ++ [name]) := by
  obtain ⟨place, reached⟩ := read_eq_ok_iff.mp readable
  obtain ⟨directory, before, rfl⟩ :=
    place_of_follow last (ne_back_of_follow last reached rfl) reached
  exact ⟨directory, before, placeOf?_eq_some_iff.mpr ⟨_, reached, rfl⟩⟩

end FileTree

namespace Catalogue

variable {tree : FileTree} {project : Project} {path other : Path} {content : FileContent}

theorem listPath_eq (directory : Path) :
    listPath directory = ⟨directory.root, directory.components ++ ["config.json"]⟩ := by
  have name : Path.ofString listName = ⟨0, ["config.json"]⟩ := by decide
  rw [listPath, name, Path.join_relative]

/-- Whether the copy of an output is saved over an edit list: they are in one directory, and the
output is called like the list. -/
def MeetsList (tree : FileTree) (list output : Path) : Prop :=
  tree.directoryOf? output = tree.directoryOf? list ∧ output.stem = "config"

instance (tree : FileTree) (list output : Path) : Decidable (MeetsList tree list output) :=
  inferInstanceAs (Decidable (_ ∧ _))

/-- A file at another place is left by a copy, whatever becomes of that. -/
theorem read_saveCopy_of_place_ne (readable : tree.read other = .ok content)
    (apart : tree.placeOf? other ≠ tree.placeOf? path) :
    (saveCopy tree project path).2.read other = .ok content := by
  rcases write_of_saveCopy tree project path with written | ⟨same, -⟩
  · exact FileTree.read_write_of_place_ne written readable apart
  · rwa [same]

/-- A file at the place of a copy is lost. -/
theorem read_saveCopy_of_place_eq (saved : (saveCopy tree project path).1 = .ok ())
    (readable : tree.read other = .ok content) (same : tree.placeOf? other = tree.placeOf? path) :
    (saveCopy tree project path).2.read other = .ok (.text (copyText project)) :=
  FileTree.read_write_of_place_eq (write_of_saveCopy_eq_ok saved) readable same

/-- No other entry of the tree is changed by a copy. -/
theorem entryAt?_saveCopy {place : List String} (apart : tree.placeOf? path ≠ some place) :
    (saveCopy tree project path).2.entryAt? place = tree.entryAt? place := by
  rcases write_of_saveCopy tree project path with written | ⟨same, -⟩
  · exact FileTree.entryAt?_write_of_ne written apart
  · rw [same]

end Catalogue

namespace Session

variable {left : FileTree} {project : Project} {list output path : Path}

/-- The path of the edit list of the episode that a session renders. -/
def Saving.listPath (saving : Saving) : Path :=
  Catalogue.listPath
    (Catalogue.episodeDirectory saving.choice.root saving.choice.project saving.choice.episode)

/-- What saving a copy leaves of the files in a tree, and what it does not. -/
structure Spares (left : FileTree) (project : Project) (list output path : Path) : Prop where
  elsewhere : ∀ place, left.placeOf? path ≠ some place →
    (Catalogue.saveCopy left project path).2.entryAt? place = left.entryAt? place
  outputKept : ¬ output.IsNamed ".json" → ∀ content, left.read output = .ok content →
    (Catalogue.saveCopy left project path).2.read output = .ok content
  outputLost : output.IsNamed ".json" → (Catalogue.saveCopy left project path).1 = .ok () →
    (Catalogue.saveCopy left project path).2.read output =
      .ok (.text (Catalogue.copyText project))
  listKept : ¬ Catalogue.MeetsList left list output → ∀ content, left.read list = .ok content →
    (Catalogue.saveCopy left project path).2.read list = .ok content
  listLost : Catalogue.MeetsList left list output →
    (Catalogue.saveCopy left project path).1 = .ok () →
    ∀ content, left.read list = .ok content →
      (Catalogue.saveCopy left project path).2.read list = .ok (.text (Catalogue.copyText project))

/-- The place of a copy is in the directory of its output. -/
theorem placeOf?_copy {place : List String}
    (named : output.withExtension? ".json" = some path) (found : left.placeOf? path = some place) :
    ∃ directory, left.directoryOf? output = some directory ∧
      place = directory ++ [output.stem ++ ".json"] := by
  obtain ⟨-, rfl⟩ := Path.withExtension?_eq_some_iff.mp named
  have ahead : output.stem ++ ".json" ≠ ".." := by
    intro back
    have longer := congrArg String.length back
    rw [String.length_append] at longer
    have five : ".json".length = 5 := by decide
    have two : "..".length = 2 := by decide
    omega
  obtain ⟨directory, before, rfl⟩ :=
    FileTree.place_eq_of_placeOf? List.getLast?_concat ahead found
  refine ⟨directory, ?_, rfl⟩
  rw [← before]
  unfold FileTree.directoryOf? FileTree.origin Path.isAbsolute
  rw [List.dropLast_concat]

/-- A file that is read shares its place with a copy exactly if it is in the same directory and is
called like the copy. -/
theorem placeOf?_eq_copy_iff {other : Path} {name : String} {content : FileContent}
    (named : output.withExtension? ".json" = some path)
    (last : other.components.getLast? = some name) (readable : left.read other = .ok content)
    (reached : (left.placeOf? path).isSome = true) :
    left.placeOf? other = left.placeOf? path ↔
      left.directoryOf? output = left.directoryOf? other ∧ name = output.stem ++ ".json" := by
  obtain ⟨own, before, there⟩ := FileTree.place_of_read last readable
  obtain ⟨place, found⟩ := Option.isSome_iff_exists.mp reached
  obtain ⟨directory, behind, rfl⟩ := placeOf?_copy named found
  rw [there, found, before, behind, Option.some.injEq, Option.some.injEq,
    List.append_singleton_inj, eq_comm (a := own)]

/-- A copy that is saved has a place. -/
theorem isSome_placeOf?_of_saved (saved : (Catalogue.saveCopy left project path).1 = .ok ()) :
    (left.placeOf? path).isSome = true := by
  obtain ⟨_, reached, -, -⟩ :=
    FileTree.write_eq_ok_iff.mp (Catalogue.write_of_saveCopy_eq_ok saved)
  rw [FileTree.placeOf?_eq_some_iff.mpr ⟨_, reached, rfl⟩]
  rfl

theorem stem_eq_config_iff :
    "config.json" = output.stem ++ ".json" ↔ output.stem = "config" := by
  have list : "config.json" = "config" ++ ".json" := by decide
  rw [list, String.append_left_inj, eq_comm]

/-- Wherever the copy of an output is saved, it is written over that or over an edit list only
where their names say so. -/
theorem spares_saveCopy (left : FileTree) (project : Project) (directory : Path)
    (named : output.withExtension? ".json" = some path) :
    Spares left project (Catalogue.listPath directory) output path := by
  obtain ⟨inside, -⟩ := Path.withExtension?_eq_some_iff.mp named
  have outputLast := Path.getLast?_eq_name inside
  have listLast : (Catalogue.listPath directory).components.getLast? = some "config.json" := by
    rw [Catalogue.listPath_eq]
    exact List.getLast?_concat
  -- Two paths share a place only if that of the file exists.
  have shared {other : Path} {content : FileContent} (readable : left.read other = .ok content)
      (same : left.placeOf? other = left.placeOf? path) : (left.placeOf? path).isSome = true := by
    obtain ⟨_, reached⟩ := FileTree.read_eq_ok_iff.mp readable
    rw [← same, FileTree.placeOf?_eq_some_iff.mpr ⟨_, reached, rfl⟩]
    rfl
  constructor
  case elsewhere => exact fun place apart => Catalogue.entryAt?_saveCopy apart
  case outputKept =>
    intro free content readable
    refine Catalogue.read_saveCopy_of_place_ne readable fun same => free ?_
    have meets := (placeOf?_eq_copy_iff named outputLast readable (shared readable same)).mp same
    exact Path.name_eq_stem_append_iff.mp meets.2
  case outputLost =>
    intro taken saved
    obtain rfl := (Path.copy_eq_iff named).mpr taken
    exact Catalogue.read_saveCopy saved
  case listKept =>
    intro free content readable
    refine Catalogue.read_saveCopy_of_place_ne readable fun same => free ?_
    have meets := (placeOf?_eq_copy_iff named listLast readable (shared readable same)).mp same
    exact ⟨meets.1, stem_eq_config_iff.mp meets.2⟩
  case listLost =>
    intro meets saved content readable
    refine Catalogue.read_saveCopy_of_place_eq saved readable ?_
    have reached := isSome_placeOf?_of_saved saved
    exact (placeOf?_eq_copy_iff named listLast readable reached).mpr
      ⟨meets.1, stem_eq_config_iff.mpr meets.2⟩

/-- A session that reaches its copy does nothing to the files after that. The copy is written to
the output exactly if that has the extension of copies already. In whatever tree it is saved, the
output and the edit list of the episode keep their content, but where the copy is written over
them. -/
theorem spared_of_start (surroundings : Surroundings) (tree : FileTree) (input : String)
    (arguments : List String) {path : Path}
    (copied : (start surroundings tree input arguments).2.copy = some path) :
    ∃ saving, Saves surroundings tree input arguments saving ∧
      (start surroundings tree input arguments).2.tree =
        (Catalogue.saveCopy saving.opened.tree saving.request.project path).2 ∧
      (path = saving.request.output ↔ saving.request.output.IsNamed ".json") ∧
      ∀ left, Spares left saving.request.project saving.listPath saving.request.output path := by
  rw [copy_of_start, Option.map_eq_some_iff] at copied
  obtain ⟨saving, given, rfl⟩ := copied
  have saves := saving?_eq_some_iff.mp given
  exact ⟨saving, saves, congrArg SessionDeeds.tree (ended_of_saves saves).2,
    Path.copy_eq_iff saves.named, fun left => spares_saveCopy left _ _ saves.named⟩

theorem spared_sampleTree : ∃ saving,
    Saves sampleSurroundings sampleTree "" (sampleArguments "clip.mp4") saving ∧
      ¬ saving.request.output.IsNamed ".json" ∧
      ¬ Catalogue.MeetsList saving.opened.tree saving.listPath saving.request.output ∧
      ∀ left, Spares left saving.request.project saving.listPath saving.request.output
        ⟨0, ["clip.json"]⟩ := by
  have apart : (saving? sampleSurroundings sampleTree "" (sampleArguments "clip.mp4")).any
      (fun saving => saving.path = ⟨0, ["clip.json"]⟩ ∧ ¬ saving.request.output.IsNamed ".json" ∧
        ¬ Catalogue.MeetsList saving.opened.tree saving.listPath saving.request.output) = true := by
    decide +kernel
  obtain ⟨saving, saves, apart⟩ := exists_saves apart
  obtain ⟨path, unnamed, away⟩ := of_decide_eq_true apart
  have copied : (start sampleSurroundings sampleTree "" (sampleArguments "clip.mp4")).2.copy =
      some ⟨0, ["clip.json"]⟩ := path ▸ copy_of_saves saves
  obtain ⟨other, again, -, -, spares⟩ :=
    spared_of_start sampleSurroundings sampleTree "" (sampleArguments "clip.mp4") copied
  obtain rfl := saves.unique again
  exact ⟨saving, saves, unnamed, away, spares⟩

/-- An output with the extension of copies is taken by its copy, and an output beside the edit list
that is called like it takes the list. -/
theorem overwritten_sampleTree :
    (∃ saving, Saves sampleSurroundings sampleTree "" (sampleArguments "clip.json") saving ∧
      (start sampleSurroundings sampleTree "" (sampleArguments "clip.json")).2.copy =
        some saving.request.output) ∧
    ∃ saving,
      Saves sampleSurroundings sampleTree "" (sampleArguments "show/pilot/config.mp4") saving ∧
      (start sampleSurroundings sampleTree "" (sampleArguments "show/pilot/config.mp4")).2.copy =
        some saving.listPath := by
  constructor
  · have taken : (saving? sampleSurroundings sampleTree "" (sampleArguments "clip.json")).any
        (fun saving => saving.path = saving.request.output) = true := by decide +kernel
    obtain ⟨saving, saves, taken⟩ := exists_saves taken
    exact ⟨saving, saves, of_decide_eq_true taken ▸ copy_of_saves saves⟩
  · have taken : (saving? sampleSurroundings sampleTree ""
        (sampleArguments "show/pilot/config.mp4")).any
          (fun saving => saving.path = saving.listPath) = true := by decide +kernel
    obtain ⟨saving, saves, taken⟩ := exists_saves taken
    exact ⟨saving, saves, of_decide_eq_true taken ▸ copy_of_saves saves⟩

end Session

end Montage
