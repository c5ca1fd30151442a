import Fragboard.Proofs.Storage.ReplacedFiles
import Mathlib.Control.Monad.Basic

/-!
# Writing one file

Replacing a file writes the new content beside it, under the path with its
extension replaced, and moves it into place.  `FileTree.replaceFile_files` tells
what stands at every place afterwards: a write that succeeds changes the file at
its path and takes away what stood where the content was staged; one that fails
changes nothing, or leaves behind what it had staged by then.

A path that can be read ends in a name: everything else that it could end in
leads to a directory (`FileTree.directory_of_nameless`).
-/

namespace Fragboard.Storage

namespace FileTree

/-- A place to which a way leads: the working directory, one above it, or what
stands below a directory that a way leads to. -/
inductive Reached (tree : FileTree) : Location → Prop
  | ambient {location : Location} (ambient : location.isAmbient = true) :
      Reached tree location
  | under {location : Location} (name : String)
      (reached : Reached tree location)
      (directory : tree.isDirectory location = true) :
      Reached tree (location ++ [.name name])

section Reached

variable {tree : FileTree} {location : Location}

theorem isDirectory_of_ambient (ambient : location.isAmbient = true) :
    tree.isDirectory location = true := by
  rw [isDirectory, tree.node?_of_ambient ambient]
  rfl

theorem above_of_ambient (ambient : location.isAmbient = true) :
    (above location).isAmbient = true := by
  unfold above
  split
  · next name last =>
    have member := List.mem_of_getLast? last
    have outside := List.all_eq_true.mp ambient _ member
    simp at outside
  · exact ambient
  · rw [Location.isAmbient, List.all_append]
    exact Bool.and_eq_true_iff.mpr ⟨ambient, rfl⟩

theorem above_named (location : Location) (name : String) :
    above (location ++ [.name name]) = location := by
  rw [above, List.getLast?_concat]
  exact List.dropLast_concat

theorem Reached.above (reached : tree.Reached location) :
    tree.Reached (above location) ∧
      tree.isDirectory (FileTree.above location) = true := by
  cases reached with
  | ambient ambient =>
      have higher := above_of_ambient ambient
      exact ⟨.ambient higher, isDirectory_of_ambient higher⟩
  | under name reached directory =>
      rw [above_named]
      exact ⟨reached, directory⟩

theorem Reached.step (reached : tree.Reached location) {next : Location}
    {component : Component}
    (stepped : tree.step location component = .ok next) :
    tree.Reached next := by
  obtain ⟨directory, rfl⟩ := step_ok stepped
  cases component with
  | root => exact .ambient rfl
  | here => exact reached
  | up => exact reached.above.1
  | name name => exact .under name reached directory

theorem Reached.walk (reached : tree.Reached location) {goal : Location}
    {components : List Component}
    (walked : tree.walk location components = .ok goal) :
    tree.Reached goal := by
  induction components generalizing location with
  | nil => exact Except.ok.inj walked ▸ reached
  | cons component rest ih =>
      obtain ⟨next, stepped, _, later⟩ := walk_cons_ok walked
      exact ih (reached.step stepped) later

/-- A path that does not end in a name leads to a directory. -/
theorem directory_of_nameless {path : FilePath}
    (found : tree.target path = .ok location)
    (nameless : path.endsInName = false) :
    tree.isDirectory location = true := by
  obtain ⟨components, last, parent, all, _, walked, stepped⟩ :=
    target_ok found
  have reached : tree.Reached parent := Reached.walk (.ambient rfl) walked
  obtain ⟨directory, rfl⟩ := step_ok stepped
  rw [FilePath.endsInName, all, List.getLast?_concat] at nameless
  cases last with
  | root => exact isDirectory_of_ambient rfl
  | here => exact directory
  | up => exact reached.above.2
  | name name => contradiction

end Reached

theorem takes_of_read {tree : FileTree} {path : FilePath} {content : Bytes}
    (readable : tree.read path = .ok content) :
    tree.Takes path ∧ tree.fileAt? path.place = some content := by
  obtain ⟨location, found, readable⟩ := exists_of_bind_ok readable
  obtain rfl := target_eq_place found
  split at readable
  · contradiction
  · contradiction
  · next file stands =>
    split at readable
    · contradiction
    · next noSlash =>
      obtain rfl := Except.ok.inj readable
      have here : tree.fileAt? path.place = some file := by
        rw [fileAt?, stands]
      have free := notDirectory_of_fileAt? here
      refine ⟨⟨found, ?_, Bool.eq_false_iff.mpr noSlash, free⟩, here⟩
      apply Bool.of_not_eq_false
      intro nameless
      rw [directory_of_nameless found nameless] at free
      contradiction

section Places

variable (tree : FileTree) {location other : Location}

theorem fileAt?_erase_of_ne (apart : other ≠ location) :
    (tree.erase location).fileAt? other = tree.fileAt? other := by
  rw [fileAt?, tree.node?_erase_of_ne apart]
  rfl

theorem fileAt?_erase_self (listed : location.isAmbient = false) :
    (tree.erase location).fileAt? location = none := by
  simp [fileAt?, node?, erase, listed, lookup_filter_self]

end Places

theorem fileAt?_rename {tree moved : FileTree} {source destination : FilePath}
    {content : Bytes}
    (renamed : tree.rename source destination = (moved, .ok ()))
    (stands : tree.fileAt? source.place = some content)
    (location : Location) :
    moved.fileAt? location =
      if location = destination.place then some content
      else if location = source.place then none
      else tree.fileAt? location := by
  obtain ⟨_, same, takes, rfl⟩ := rename_ok renamed
  obtain rfl := Option.some.inj (same.symm.trans stands)
  by_cases here : location = destination.place
  · rw [if_pos here, here]
    exact fileAt?_put_file _ (notDirectory_erase takes.free _) _
  · rw [if_neg here, fileAt?_put_of_ne _ _ here]
    by_cases gone : location = source.place
    · rw [if_pos gone, gone]
      exact tree.later.fileAt?_erase_self
        (tree.listed_of_notDirectory (notDirectory_of_fileAt? stands))
    · rw [if_neg gone, fileAt?_erase_of_ne _ gone, fileAt?_later]

theorem fileAt?_of_replaceFile {tree after : FileTree} {path : FilePath}
    {content : Bytes}
    (done : tree.replaceFile path content = (after, .ok ()))
    (location : Location) :
    after.fileAt? location =
      if location = path.place then some content
      else if location = (stagingPath path).place then none
      else tree.fileAt? location := by
  obtain ⟨staged, keeps, stands, renamed⟩ := replaceFile_ok_cases done
  rw [fileAt?_rename renamed stands]
  split
  · rfl
  · split
    · rfl
    · next apart => exact keeps.files location (by simpa using apart)

/-- Writing a file keeps all directories.

If it succeeds, the path holds just the new content.  All other files stand as
they did and none is new, but where the content was staged there is nothing any
more.

If it fails, all files stand as they did and none is new, but for the file in
which the content is staged.  That one stands as it did if making the directory
or opening it failed; it holds a beginning of the content if writing it or making
sure of it failed, and all of it if moving it failed.  What the path held can
still be read from it, unless it leads to the file in which the content is staged
and that file was opened. -/
theorem replaceFile_files (tree : FileTree) (path : FilePath)
    (content : Bytes) :
    let staging := (stagingPath path).place
    let outcome := tree.replaceFile path content
    let after := outcome.1
    tree.DirectoriesStay after ∧
    match outcome.2 with
    | .ok () =>
      after.read path = .ok content ∧
      ∀ location, after.fileAt? location =
        if location = path.place then some content
        else if location = staging then none
        else tree.fileAt? location
    | .error failure =>
      (∀ location, location ≠ staging →
        after.fileAt? location = tree.fileAt? location) ∧
      (match failure.step with
        | .makeDirectory | .create =>
          after.fileAt? staging = tree.fileAt? staging
        | .write | .sync =>
          ∃ count, after.fileAt? staging = some (content.take count)
        | .rename => after.fileAt? staging = some content) ∧
      ((failure.step.isLate = true → staging ≠ path.place) →
        ∀ old, tree.read path = .ok old → after.read path = .ok old) := by
  intro staging outcome after
  cases result : outcome.2 with
  | ok done =>
      have done : tree.replaceFile path content = (after, .ok ()) :=
        Prod.ext rfl result
      obtain ⟨keeps, takes, stands⟩ := replaceFile_ok done
      exact ⟨keeps.directories, read_of_takes takes stands,
        fileAt?_of_replaceFile done⟩
  | error failure =>
      have failed : tree.replaceFile path content = (after, .error failure) :=
        Prod.ext rfl result
      obtain ⟨keeps, leaves⟩ := replaceFile_error failed
      refine ⟨keeps.directories, ?_, ?_, ?_⟩
      · intro location apart
        exact keeps.files location (by simpa using apart)
      · cases step : failure.step with
        | makeDirectory | create | write | sync | rename =>
            rw [step] at leaves
            exact leaves
      · intro spared old readable
        obtain ⟨takes, stands⟩ := takes_of_read readable
        have still := fileAt?_of_failed stands failed spared
        exact read_of_takes (takes.of_stay keeps.directories still) still

/-- Writing `b.dat` takes the file `b.tmp` away.  Writing over a directory fails
and leaves a new file beside it.  When the disk is full after the first byte, the
beginning of the content is left, in `b.tmp` even when that is the file to be
written. -/
theorem replaceFile_touches_staging :
    let path : FilePath := { text := "b.dat" }
    let beside : FilePath := { text := "b.tmp" }
    let tree := ofFiles [(beside, [110])]
    let written := tree.replaceFile path [0]
    let folder : FilePath := { text := "d" }
    let left : FilePath := { text := "d.tmp" }
    let filled := ofFiles [({ text := "d/x" }, [110])]
    let refused := filled.replaceFile folder [0]
    let trouble : Trouble :=
      { description := "No space left on device (os error 28)", through := 1 }
    let full : FileTree := { tree with outlook := [none, some trouble] }
    let stopped := full.replaceFile path [0, 0]
    let spoilt := full.replaceFile beside [0, 0]
    (written.2 = .ok () ∧ tree.read beside = .ok [110] ∧
      written.1.read beside = .error .noEntry) ∧
    (refused.2 = .error ⟨.rename, folder, .isDirectory⟩ ∧
      filled.read left = .error .noEntry ∧ refused.1.read left = .ok [0]) ∧
    (stopped.2 = .error ⟨.write, beside, .other trouble.description⟩ ∧
      stopped.1.read beside = .ok [0]) ∧
    (spoilt.2 = .error ⟨.write, beside, .other trouble.description⟩ ∧
      spoilt.1.read beside = .ok [0]) := by
  decide +kernel

end FileTree

end Fragboard.Storage
