import Montage.FileTree
import Montage.Proofs.Drafting

/-!
# Written files

Many paths lead to one place. What a path leads to after a file was written depends on nothing but
whether it leads to the place of that file: there it finds what was written
(`read_write_of_place_eq`), anywhere else what it found before (`read_write_of_place_ne`). A path
with a last name leads below the directory of its other names (`place_of_follow`).
-/

namespace Montage

namespace Destination

/-- The place where a path ends. -/
def place : Destination → List String
  | .entry place _ => place
  | .vacant place => place

/-- Whether a file can be written there. -/
def takesFile : Destination → Bool
  | .entry _ .directory => false
  | .entry _ (.file _) => true
  | .vacant _ => true

/-- What the same path leads to after a file was written to a place. -/
def rewritten (destination : Destination) (place : List String) (content : FileContent) :
    Destination :=
  if destination.takesFile ∧ destination.place = place then .entry place (.file content)
  else destination

end Destination

namespace FileTree

variable {tree after : FileTree} {place start names : List String} {content : FileContent}
  {destination : Destination} {path other : Path}

/-! ## Following names -/

/-- Where a file can be written there is no directory, and it is not the root. -/
theorem free_of_walk (reached : tree.walk start names = .ok destination)
    (free : destination.takesFile = true) :
    destination.place ≠ [] ∧ tree.entryAt? destination.place ≠ some .directory := by
  induction names generalizing start with
  | nil =>
    cases reached
    cases free
  | cons name rest ih =>
    unfold walk at reached
    split at reached
    · exact ih reached
    · split at reached
      · cases reached
      · dsimp only at reached
        have inside : start ++ [name] ≠ [] := by simp
        split at reached
        · exact ih reached
        · next found =>
          split at reached
          · cases reached
            exact ⟨inside, by simp [Destination.place, found]⟩
          · cases reached
        · next missing =>
          split at reached
          · cases reached
            exact ⟨inside, by simp [Destination.place, missing]⟩
          · cases reached

/-- The way to a destination leads through directories, which a written file does not touch. -/
theorem walk_put (content : FileContent) (inside : place ≠ []) (free : tree.entryAt? place ≠ some .directory)
    (reached : tree.walk start names = .ok destination) :
    (tree.put place (.file content)).walk start names =
      .ok (destination.rewritten place content) := by
  induction names generalizing start with
  | nil =>
    cases reached
    rfl
  | cons name rest ih =>
    unfold walk at reached ⊢
    split at reached
    · next back =>
      rw [if_pos back]
      exact ih reached
    next ahead =>
    rw [if_neg ahead]
    split at reached
    · cases reached
    next short =>
    rw [if_neg short]
    dsimp only at reached ⊢
    by_cases same : start ++ [name] = place
    · rw [same, entryAt?_put_self tree _ inside]
      rw [same] at reached
      split at reached
      · next found => exact absurd found free
      all_goals
        split at reached
        · next last =>
          cases reached
          simp [last, Destination.rewritten, Destination.takesFile, Destination.place]
        · cases reached
    · rw [entryAt?_put_of_ne tree _ same]
      split at reached
      · exact ih reached
      all_goals
        split at reached
        · next last =>
          cases reached
          simp [last, Destination.rewritten, Destination.takesFile, Destination.place, same]
        · cases reached

/-- Names lead somewhere exactly if all but the last lead to a directory, and the last one leads on
from there. -/
theorem walk_concat_eq_ok_iff {name : String} :
    tree.walk start (names ++ [name]) = .ok destination ↔
      ∃ directory, tree.walk start names = .ok (.entry directory .directory) ∧
        tree.walk directory [name] = .ok destination := by
  induction names generalizing start with
  | nil =>
    constructor
    · exact fun reached => ⟨start, rfl, reached⟩
    · rintro ⟨directory, same, reached⟩
      cases same
      exact reached
  | cons first rest ih =>
    have more : (rest ++ [name]).isEmpty = false := by simp
    rw [List.cons_append, walk, walk.eq_def tree start (first :: rest)]
    dsimp only
    split
    · exact ih
    split
    · exact iff_of_false nofun nofun
    split
    · exact ih
    all_goals
      rw [more, if_neg Bool.false_ne_true]
      refine iff_of_false nofun ?_
      rintro ⟨_, reached, -⟩
      split at reached <;> cases reached

/-- A name leads to its place in the directory. -/
theorem place_of_walk_singleton {name : String} {directory : List String} (ahead : name ≠ "..")
    (reached : tree.walk directory [name] = .ok destination) :
    destination.place = directory ++ [name] := by
  rw [walk, if_neg ahead] at reached
  split at reached
  · cases reached
  · dsimp only at reached
    split at reached <;> cases reached <;> rfl

/-- A double dot leads to a directory. -/
theorem takesFile_of_walk_back {directory : List String}
    (reached : tree.walk directory [".."] = .ok destination) : destination.takesFile = false := by
  cases reached
  rfl

/-! ## Following paths -/

/-- The place from which the names of a path are followed. -/
def origin (tree : FileTree) (path : Path) : List String :=
  if path.isAbsolute then [] else tree.working

/-- The place to which a path leads. -/
def placeOf? (tree : FileTree) (path : Path) : Option (List String) :=
  (tree.follow path).toOption.map Destination.place

/-- The directory to which the names of a path but the last lead. -/
def directoryOf? (tree : FileTree) (path : Path) : Option (List String) :=
  match tree.walk (tree.origin path) path.components.dropLast with
  | .ok (.entry directory .directory) => some directory
  | _ => none

theorem placeOf?_eq_some_iff :
    tree.placeOf? path = some place ↔
      ∃ destination, tree.follow path = .ok destination ∧ destination.place = place := by
  simp only [placeOf?, Option.map_eq_some_iff, except_toOption_eq_some_iff]

theorem walk_of_follow (reached : tree.follow path = .ok destination) :
    tree.walk (tree.origin path) path.components = .ok destination := by
  unfold follow at reached
  dsimp only at reached
  split at reached
  · cases reached
  split at reached
  · cases reached
  split at reached
  · cases reached
  · exact reached

/-- What can be said of a path and cannot be changed by writing a file. -/
theorem follow_put (inside : place ≠ []) (free : tree.entryAt? place ≠ some .directory)
    (reached : tree.follow path = .ok destination) :
    (tree.put place (.file content)).follow path = .ok (destination.rewritten place content) := by
  have walked := walk_put content inside free (walk_of_follow reached)
  unfold follow at reached ⊢
  dsimp only at reached ⊢
  split at reached
  · cases reached
  next nameable =>
  rw [if_neg nameable]
  split at reached
  · cases reached
  next storable =>
  rw [if_neg storable]
  split at reached
  · cases reached
  next short =>
  rw [if_neg short]
  exact walked

/-- A path that ends with a name leads below the directory of its other names. -/
theorem place_of_follow {name : String} (last : path.components.getLast? = some name)
    (ahead : name ≠ "..") (reached : tree.follow path = .ok destination) :
    ∃ directory, tree.directoryOf? path = some directory ∧
      destination.place = directory ++ [name] := by
  have walked := walk_of_follow reached
  rw [← List.dropLast_append_getLast? name last, walk_concat_eq_ok_iff] at walked
  obtain ⟨directory, before, behind⟩ := walked
  exact ⟨directory, by rw [directoryOf?, before], place_of_walk_singleton ahead behind⟩

/-- A path to where a file can be written does not end with a double dot. -/
theorem ne_back_of_follow {name : String} (last : path.components.getLast? = some name)
    (reached : tree.follow path = .ok destination) (free : destination.takesFile = true) :
    name ≠ ".." := by
  rintro rfl
  have walked := walk_of_follow reached
  rw [← List.dropLast_append_getLast? ".." last, walk_concat_eq_ok_iff] at walked
  obtain ⟨_, _, behind⟩ := walked
  rw [takesFile_of_walk_back behind] at free
  cases free

/-! ## Reading and writing -/

theorem read_eq_ok_iff :
    tree.read path = .ok content ↔
      ∃ place, tree.follow path = .ok (.entry place (.file content)) := by
  unfold read find
  rcases tree.follow path with fault | ⟨place, _ | found⟩ | place
  · exact iff_of_false nofun nofun
  · exact iff_of_false nofun nofun
  · show Except.ok found = _ ↔ _
    simp
  · exact iff_of_false nofun nofun

theorem write_eq_ok_iff :
    tree.write path content = .ok after ↔ ∃ destination, tree.follow path = .ok destination ∧
      destination.takesFile = true ∧ tree.put destination.place (.file content) = after := by
  unfold write
  rcases tree.follow path with fault | ⟨place, _ | found⟩ | place
  · exact iff_of_false nofun nofun
  · refine iff_of_false nofun ?_
    rintro ⟨_, same, free, -⟩
    cases same
    cases free
  all_goals
    show Except.ok (tree.put place (.file content)) = _ ↔ _
    simp [Destination.takesFile, Destination.place]

/-- What a path leads to after a file was written. -/
theorem follow_write (written : tree.write path content = .ok after)
    (reached : tree.follow other = .ok destination) :
    ∃ place, tree.placeOf? path = some place ∧
      after.follow other = .ok (destination.rewritten place content) := by
  obtain ⟨target, found, free, rfl⟩ := write_eq_ok_iff.mp written
  obtain ⟨inside, vacant⟩ := free_of_walk (walk_of_follow found) free
  exact ⟨target.place, placeOf?_eq_some_iff.mpr ⟨target, found, rfl⟩,
    follow_put inside vacant reached⟩

/-- What was written is read at every path that leads to its place. -/
theorem read_write_of_place_eq {old : FileContent}
    (written : tree.write path content = .ok after) (readable : tree.read other = .ok old)
    (same : tree.placeOf? other = tree.placeOf? path) : after.read other = .ok content := by
  obtain ⟨own, reached⟩ := read_eq_ok_iff.mp readable
  obtain ⟨place, target, followed⟩ := follow_write written reached
  have at_place : own = place := by
    have there := placeOf?_eq_some_iff.mpr ⟨_, reached, rfl⟩
    rw [same, target] at there
    exact (Option.some.inj there).symm
  subst at_place
  refine read_eq_ok_iff.mpr ⟨own, ?_⟩
  rwa [Destination.rewritten, if_pos ⟨rfl, rfl⟩] at followed

/-- A path that leads elsewhere reads what it read before. -/
theorem read_write_of_place_ne {old : FileContent}
    (written : tree.write path content = .ok after) (readable : tree.read other = .ok old)
    (apart : tree.placeOf? other ≠ tree.placeOf? path) : after.read other = .ok old := by
  obtain ⟨own, reached⟩ := read_eq_ok_iff.mp readable
  obtain ⟨place, target, followed⟩ := follow_write written reached
  have elsewhere : own ≠ place := by
    rintro rfl
    exact apart ((placeOf?_eq_some_iff.mpr ⟨_, reached, rfl⟩).trans target.symm)
  refine read_eq_ok_iff.mpr ⟨own, ?_⟩
  rwa [Destination.rewritten, if_neg (fun both => elsewhere both.2)] at followed

/-- What was written is read where it was written. -/
theorem read_write_self (written : tree.write path content = .ok after) :
    after.read path = .ok content := by
  obtain ⟨target, found, free, -⟩ := write_eq_ok_iff.mp written
  obtain ⟨place, there, followed⟩ := follow_write written found
  obtain ⟨_, same, rfl⟩ := placeOf?_eq_some_iff.mp there
  cases found.symm.trans same
  refine read_eq_ok_iff.mpr ⟨target.place, ?_⟩
  rwa [Destination.rewritten, if_pos ⟨free, rfl⟩] at followed

/-- No other place is changed by writing a file. -/
theorem entryAt?_write_of_ne (written : tree.write path content = .ok after)
    (apart : tree.placeOf? path ≠ some place) : after.entryAt? place = tree.entryAt? place := by
  obtain ⟨target, found, -, rfl⟩ := write_eq_ok_iff.mp written
  refine entryAt?_put_of_ne tree _ ?_
  rintro rfl
  exact apart (placeOf?_eq_some_iff.mpr ⟨target, found, rfl⟩)

theorem hasEntry_eq_true_iff :
    tree.hasEntry path = .ok true ↔
      ∃ place entry, tree.follow path = .ok (.entry place entry) := by
  unfold hasEntry find
  rcases tree.follow path with fault | ⟨place, entry⟩ | place
  · cases fault <;> exact iff_of_false nofun nofun
  · exact iff_of_true rfl ⟨place, entry, rfl⟩
  · exact iff_of_false nofun nofun

/-- What is there stays there when a file is written. -/
theorem hasEntry_write (written : tree.write path content = .ok after)
    (present : tree.hasEntry other = .ok true) : after.hasEntry other = .ok true := by
  obtain ⟨own, entry, reached⟩ := hasEntry_eq_true_iff.mp present
  obtain ⟨place, -, followed⟩ := follow_write written reached
  rw [hasEntry_eq_true_iff, followed]
  unfold Destination.rewritten
  split
  · exact ⟨_, _, rfl⟩
  · exact ⟨_, _, rfl⟩

end FileTree

end Montage
