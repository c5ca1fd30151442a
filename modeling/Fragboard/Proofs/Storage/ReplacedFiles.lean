import Fragboard.Proofs.Storage.FilePlaces

/-!
# What replacing a file touches

`FileTree.KeepsBut` says that no directory goes and that files differ at certain
places only.  Replacing a file touches the place of its path and the place where
the content is staged.  There is a lemma for each step and each way it can end;
from them follow `replaceFile_ok`, for a write that succeeds, and
`replaceFile_error`, for one that fails at some step.
-/

namespace Fragboard.Storage

section Lookup

variable {α β : Type} [BEq α] [LawfulBEq α] (entries : List (α × β))

theorem lookup_filter_self (key : α) :
    (entries.filter (·.1 != key)).lookup key = none := by
  apply List.lookup_eq_none_iff.mpr
  intro entry member
  have apart := (List.mem_filter.mp member).2
  rwa [bne_comm]

theorem lookup_filter_of_ne {key other : α} (apart : other ≠ key) :
    (entries.filter (·.1 != key)).lookup other = entries.lookup other := by
  induction entries with
  | nil => rfl
  | cons entry rest ih =>
      obtain ⟨first, value⟩ := entry
      by_cases gone : first = key
      · have missed : (other == key) = false := beq_eq_false_iff_ne.mpr apart
        simp [gone, List.lookup_cons, missed, ih]
      · simp [gone, List.lookup_cons, ih]

end Lookup

namespace FileTree

section Nodes

variable (tree : FileTree) {location other : Location}

theorem node?_of_ambient (ambient : location.isAmbient = true) :
    tree.node? location = some .directory := by
  rw [node?, if_pos ambient]

theorem node?_erase_of_ne (apart : other ≠ location) :
    (tree.erase location).node? other = tree.node? other := by
  unfold node? erase
  dsimp only
  rw [lookup_filter_of_ne _ apart]

theorem node?_put_of_ne (node : Node) (apart : other ≠ location) :
    (tree.put location node).node? other = tree.node? other := by
  have missed : (other == location) = false := beq_eq_false_iff_ne.mpr apart
  have erased := tree.node?_erase_of_ne apart
  unfold node? put at *
  dsimp only
  rw [List.lookup_append, List.lookup_cons, missed, List.lookup_nil,
    Option.or_none]
  exact erased

theorem node?_put_self (node : Node) (listed : location.isAmbient = false) :
    (tree.put location node).node? location = some node := by
  simp [node?, put, erase, listed, List.lookup_append, lookup_filter_self]

theorem listed_of_notDirectory (free : tree.isDirectory location = false) :
    location.isAmbient = false := by
  apply Bool.eq_false_iff.mpr
  intro ambient
  rw [isDirectory, tree.node?_of_ambient ambient] at free
  contradiction

theorem notDirectory_of_fileAt? {tree : FileTree} {content : Bytes}
    (stands : tree.fileAt? location = some content) :
    tree.isDirectory location = false := by
  unfold fileAt? at stands
  unfold isDirectory
  split at stands
  · next found => rw [found]; rfl
  · contradiction

theorem fileAt?_put_file (free : tree.isDirectory location = false)
    (content : Bytes) :
    (tree.put location (.file content)).fileAt? location = some content := by
  rw [fileAt?, tree.node?_put_self _ (tree.listed_of_notDirectory free)]

theorem fileAt?_put_of_ne (node : Node) (apart : other ≠ location) :
    (tree.put location node).fileAt? other = tree.fileAt? other := by
  rw [fileAt?, tree.node?_put_of_ne node apart]
  rfl

@[simp] theorem fileAt?_later :
    tree.later.fileAt? location = tree.fileAt? location :=
  rfl

theorem fileAt?_cut {tree : FileTree} {content : Bytes}
    (stands : tree.fileAt? location = some content) (count : Nat)
    (other : Location) :
    (tree.cut location count).fileAt? other =
      if other = location then some (content.take count)
      else tree.fileAt? other := by
  simp only [cut, stands]
  split
  · next here =>
      rw [here]
      exact tree.fileAt?_put_file (notDirectory_of_fileAt? stands) _
  · next apart => exact tree.fileAt?_put_of_ne _ apart

end Nodes

structure KeepsBut (places : List Location) (before after : FileTree) :
    Prop where
  directories : before.DirectoriesStay after
  files : ∀ location ∉ places,
    after.fileAt? location = before.fileAt? location

section KeepsBut

variable {places more : List Location} {first second third : FileTree}

theorem KeepsBut.refl (places : List Location) (tree : FileTree) :
    KeepsBut places tree tree :=
  ⟨fun _ directory => directory, fun _ _ => rfl⟩

theorem KeepsBut.trans (earlier : KeepsBut places first second)
    (later : KeepsBut places second third) : KeepsBut places first third where
  directories := fun location directory =>
    later.directories location (earlier.directories location directory)
  files := fun location outside =>
    (later.files location outside).trans (earlier.files location outside)

theorem KeepsBut.mono (keeps : KeepsBut places first second)
    (included : places ⊆ more) : KeepsBut more first second where
  directories := keeps.directories
  files := fun location outside =>
    keeps.files location fun member => outside (included member)

end KeepsBut

/-- Outside of places that are no directories, nodes are the same. -/
theorem keepsBut_of_nodes {places : List Location} {before after : FileTree}
    (free : ∀ location ∈ places, before.isDirectory location = false)
    (nodes : ∀ location ∉ places, after.node? location = before.node? location) :
    KeepsBut places before after where
  directories := by
    intro location directory
    have outside : location ∉ places := by
      intro member
      rw [free location member] at directory
      contradiction
    unfold isDirectory
    rwa [nodes location outside]
  files := by
    intro location outside
    unfold fileAt?
    rw [nodes location outside]

theorem keepsBut_put_file (tree : FileTree) {location : Location}
    (free : tree.isDirectory location = false) (content : Bytes) :
    KeepsBut [location] tree (tree.put location (.file content)) := by
  apply keepsBut_of_nodes
  · simpa using free
  · intro other outside
    exact tree.node?_put_of_ne _ (by simpa using outside)

theorem keepsBut_erase (tree : FileTree) {location : Location}
    (free : tree.isDirectory location = false) :
    KeepsBut [location] tree (tree.erase location) := by
  apply keepsBut_of_nodes
  · simpa using free
  · intro other outside
    exact tree.node?_erase_of_ne (by simpa using outside)

theorem keepsBut_later (places : List Location) (tree : FileTree) :
    KeepsBut places tree tree.later :=
  ⟨fun _ directory => directory, fun _ _ => rfl⟩

theorem keepsBut_cut {tree : FileTree} {location : Location} {content : Bytes}
    (stands : tree.fileAt? location = some content) (count : Nat) :
    KeepsBut [location] tree (tree.cut location count) := by
  simp only [cut, stands]
  exact tree.keepsBut_put_file (notDirectory_of_fileAt? stands) _

/-- A new directory where nothing stood takes no file away. -/
theorem keepsBut_put_directory (tree : FileTree) {location : Location}
    (free : tree.node? location = none) :
    KeepsBut [] tree (tree.put location .directory) := by
  have listed : location.isAmbient = false := by
    apply tree.listed_of_notDirectory
    rw [isDirectory, free]
    rfl
  constructor
  · intro other directory
    unfold isDirectory at directory ⊢
    by_cases here : other = location
    · rw [here, tree.node?_put_self _ listed]
      rfl
    · rwa [tree.node?_put_of_ne _ here]
  · intro other _
    unfold fileAt?
    by_cases here : other = location
    · rw [here, tree.node?_put_self _ listed, free]
    · rw [tree.node?_put_of_ne _ here]

section Change

variable {α : Type} {tree after : FileTree}
  {edit : FileTree → Except Fault (FileTree × α)}

theorem change_ok {value : α} (done : tree.change edit = (after, .ok value)) :
    edit tree.later = .ok (after, value) := by
  unfold change at done
  split at done
  · cases done
  · split at done
    · cases done
    · next changed made edited =>
        obtain ⟨rfl, same⟩ := Prod.mk.inj done
        rw [edited, Except.ok.inj same]

theorem change_error {fault : Fault}
    (failed : tree.change edit = (after, .error fault)) : after = tree.later := by
  unfold change at failed
  split at failed
  · exact (congrArg Prod.fst failed).symm
  · split at failed
    · exact (congrArg Prod.fst failed).symm
    · cases failed

end Change

theorem keepsBut_makeDirectory (tree : FileTree) {location : Location}
    (free : tree.node? location = none) :
    KeepsBut [] tree (tree.makeDirectory location).1 := by
  have later := keepsBut_later [] tree
  cases outcome : tree.makeDirectory location with
  | mk after result =>
      cases result with
      | error fault => rwa [change_error outcome]
      | ok done =>
          have made := change_ok outcome
          have put : tree.later.put location .directory = after :=
            congrArg Prod.fst (Except.ok.inj made)
          rw [← put]
          exact later.trans (tree.later.keepsBut_put_directory free)

theorem keepsBut_makeWay (tree : FileTree) (location : Location)
    (components : List Component) :
    KeepsBut [] tree (tree.makeWay location components).1 := by
  induction components generalizing tree location with
  | nil => exact .refl [] tree
  | cons component rest ih =>
      unfold makeWay
      split
      · exact .refl [] tree
      · next next stepped =>
          split
          · exact ih tree next
          · exact .refl [] tree
          · next free =>
              have makes := tree.keepsBut_makeDirectory free
              split
              · next made outcome =>
                  rw [outcome] at makes
                  exact makes.trans (ih made next)
              · next refused fault outcome => rwa [outcome] at makes

theorem keepsBut_makeDirectories (tree : FileTree) (path : FilePath) :
    KeepsBut [] tree (tree.makeDirectories path).1 := by
  unfold makeDirectories
  split
  · exact .refl [] tree
  · exact tree.keepsBut_makeWay [] _

/-- A path that can be called by name, whose directory is there, and at whose
place no directory stands. -/
structure Takes (tree : FileTree) (path : FilePath) : Prop where
  target : tree.target path = .ok path.place
  name : path.endsInName = true
  noSlash : path.endsInSlash = false
  free : tree.isDirectory path.place = false

theorem Takes.of_stay {before after : FileTree} {path : FilePath}
    {content : Bytes} (takes : before.Takes path)
    (stay : before.DirectoriesStay after)
    (stands : after.fileAt? path.place = some content) : after.Takes path where
  target := target_of_stay stay takes.target
  name := takes.name
  noSlash := takes.noSlash
  free := notDirectory_of_fileAt? stands

theorem read_of_target {tree : FileTree} {path : FilePath} {content : Bytes}
    (reached : tree.target path = .ok path.place)
    (noSlash : path.endsInSlash = false)
    (stands : tree.fileAt? path.place = some content) :
    tree.read path = .ok content := by
  unfold fileAt? at stands
  split at stands
  · next found =>
      simp only [read, reached, bind, Except.bind, found, noSlash,
        Bool.false_eq_true, if_false, ← Option.some.inj stands]
  · contradiction

theorem read_of_takes {tree : FileTree} {path : FilePath} {content : Bytes}
    (takes : tree.Takes path)
    (stands : tree.fileAt? path.place = some content) :
    tree.read path = .ok content :=
  read_of_target takes.target takes.noSlash stands

section Operations

variable {tree after : FileTree} {path : FilePath}

theorem create_ok {file : Location}
    (created : tree.create path = (after, .ok file)) :
    file = path.place ∧ KeepsBut [path.place] tree after ∧
      after.fileAt? path.place = some [] := by
  obtain ⟨location, found, put⟩ := exists_of_bind_ok (change_ok created)
  obtain rfl := target_eq_place found
  split at put
  · contradiction
  · next allowed =>
      rw [Bool.or_eq_true, not_or, Bool.not_eq_true] at allowed
      obtain ⟨rfl, rfl⟩ := Prod.mk.inj (Except.ok.inj put)
      refine ⟨rfl, ?_, tree.later.fileAt?_put_file allowed.1 []⟩
      exact (keepsBut_later _ tree).trans
        (tree.later.keepsBut_put_file allowed.1 [])

theorem writeAll_ok {file : Location} {old content : Bytes}
    (stands : tree.fileAt? file = some old)
    (done : tree.writeAll file content = (after, .ok ())) :
    KeepsBut [file] tree after ∧ after.fileAt? file = some content := by
  have free := notDirectory_of_fileAt? stands
  unfold writeAll at done
  dsimp only at done
  split at done
  · cases done
  · obtain ⟨rfl, _⟩ := Prod.mk.inj done
    refine ⟨?_, tree.later.fileAt?_put_file free content⟩
    exact (keepsBut_later _ tree).trans
      (tree.later.keepsBut_put_file free content)

theorem writeAll_error {file : Location} {old content : Bytes} {fault : Fault}
    (stands : tree.fileAt? file = some old)
    (failed : tree.writeAll file content = (after, .error fault)) :
    KeepsBut [file] tree after ∧
      ∃ count, after.fileAt? file = some (content.take count) := by
  have free := notDirectory_of_fileAt? stands
  unfold writeAll at failed
  dsimp only at failed
  split at failed
  · next trouble _ =>
      obtain ⟨rfl, _⟩ := Prod.mk.inj failed
      have written := tree.later.fileAt?_put_file free content
      refine ⟨?_, trouble.through, ?_⟩
      · exact ((keepsBut_later _ tree).trans
          (tree.later.keepsBut_put_file free content)).trans
            (keepsBut_cut written _)
      · rw [fileAt?_cut written, if_pos rfl]
  · cases failed

theorem sync_ok {file : Location}
    (done : tree.sync file = (after, .ok ())) : after = tree.later := by
  unfold sync at done
  split at done
  · cases done
  · exact (congrArg Prod.fst done).symm

theorem sync_error {file : Location} {content : Bytes} {fault : Fault}
    (stands : tree.fileAt? file = some content)
    (failed : tree.sync file = (after, .error fault)) :
    KeepsBut [file] tree after ∧
      ∃ count, after.fileAt? file = some (content.take count) := by
  have still : tree.later.fileAt? file = some content := stands
  unfold sync at failed
  split at failed
  · next trouble _ =>
      obtain ⟨rfl, _⟩ := Prod.mk.inj failed
      refine ⟨?_, trouble.through, ?_⟩
      · exact (keepsBut_later _ tree).trans (keepsBut_cut still _)
      · rw [fileAt?_cut still, if_pos rfl]
  · cases failed

theorem notDirectory_erase {other : Location}
    (free : tree.isDirectory other = false) (location : Location) :
    (tree.erase location).isDirectory other = false := by
  by_cases here : other = location
  · subst here
    have listed := tree.listed_of_notDirectory free
    simp [isDirectory, node?, erase, listed, lookup_filter_self]
  · unfold isDirectory at free ⊢
    rwa [tree.node?_erase_of_ne here]

theorem rename_ok {source destination : FilePath}
    (renamed : tree.rename source destination = (after, .ok ())) :
    ∃ content, tree.fileAt? source.place = some content ∧
      tree.later.Takes destination ∧
      after = (tree.later.erase source.place).put destination.place
        (.file content) := by
  obtain ⟨origin, found, renamed⟩ := exists_of_bind_ok (change_ok renamed)
  obtain rfl := target_eq_place found
  split at renamed
  · contradiction
  · next content stands =>
      obtain ⟨goal, reached, renamed⟩ := exists_of_bind_ok renamed
      obtain rfl := target_eq_place reached
      split at renamed
      · contradiction
      · next name =>
          split at renamed
          · contradiction
          · next noSlash =>
              split at renamed
              · contradiction
              · next free =>
                  refine ⟨content, stands, ⟨reached, ?_, ?_, ?_⟩,
                    (congrArg Prod.fst (Except.ok.inj renamed)).symm⟩
                  · simpa using name
                  · simpa using noSlash
                  · simpa using free

theorem keepsBut_rename {source destination : FilePath}
    (renamed : tree.rename source destination = (after, .ok ())) :
    KeepsBut [source.place, destination.place] tree after := by
  obtain ⟨content, stands, takes, rfl⟩ := rename_ok renamed
  have later := keepsBut_later [source.place, destination.place] tree
  have erased := tree.later.keepsBut_erase (notDirectory_of_fileAt? stands)
  have put := keepsBut_put_file _
    (notDirectory_erase takes.free source.place) content
  exact (later.trans (erased.mono (by simp))).trans (put.mono (by simp))

end Operations

namespace WriteOutcome

variable {α β : Type}

theorem next_done (outcome : WriteOutcome α) :
    outcome.next (fun tree value => (tree, .ok value)) = outcome := by
  obtain ⟨made, failure | value⟩ := outcome <;> rfl

theorem next_ok {outcome : WriteOutcome α}
    {step : FileTree → α → WriteOutcome β} {after : FileTree} {result : β}
    (done : outcome.next step = (after, .ok result)) :
    ∃ made value, outcome = (made, .ok value) ∧
      step made value = (after, .ok result) := by
  obtain ⟨made, failure | value⟩ := outcome
  · cases done
  · exact ⟨made, value, rfl, done⟩

theorem next_error {outcome : WriteOutcome α}
    {step : FileTree → α → WriteOutcome β} {after : FileTree}
    {failure : WriteFailure}
    (failed : outcome.next step = (after, .error failure)) :
    outcome = (after, .error failure) ∨
      ∃ made value, outcome = (made, .ok value) ∧
        step made value = (after, .error failure) := by
  obtain ⟨made, other | value⟩ := outcome
  · left
    obtain ⟨rfl, same⟩ := Prod.mk.inj failed
    rw [Except.error.inj same]
  · exact .inr ⟨made, value, rfl, failed⟩

theorem ofStep_ok {step : WriteStep} {path : FilePath}
    {outcome : FileTree × Except Fault α} {after : FileTree} {value : α}
    (done : ofStep step path outcome = (after, .ok value)) :
    outcome = (after, .ok value) := by
  obtain ⟨made, fault | result⟩ := outcome
  · cases done
  · obtain ⟨rfl, same⟩ := Prod.mk.inj done
    rw [Except.ok.inj same]

theorem ofStep_error {step : WriteStep} {path : FilePath}
    {outcome : FileTree × Except Fault α} {after : FileTree}
    {failure : WriteFailure}
    (failed : ofStep step path outcome = (after, .error failure)) :
    failure.step = step ∧ failure.path = path ∧
      outcome = (after, .error failure.fault) := by
  obtain ⟨made, fault | result⟩ := outcome
  · obtain ⟨rfl, same⟩ := Prod.mk.inj failed
    obtain rfl := Except.error.inj same
    exact ⟨rfl, rfl, rfl⟩
  · cases failed

end WriteOutcome

/-- The step comes after the file for the new content was opened. -/
def WriteStep.isLate : WriteStep → Bool
  | .makeDirectory | .create => false
  | .write | .sync | .rename => true

/-- What a write that failed at a step has left of a file in which it stages its
content. -/
def WriteStep.Leaves (content : Bytes) (before after : Option Bytes) :
    WriteStep → Prop
  | .makeDirectory | .create => after = before
  | .write | .sync => ∃ count, after = some (content.take count)
  | .rename => after = some content

/-- A file that was opened holds nothing of what it held before. -/
theorem WriteStep.Leaves.of_late {step : WriteStep} {content : Bytes}
    {before after : Option Bytes} (leaves : step.Leaves content before after)
    (late : step.isLate = true) (other : Option Bytes) :
    step.Leaves content other after := by
  cases step with
  | makeDirectory | create => contradiction
  | write | sync | rename => exact leaves

section Steps

variable {tree after : FileTree} {path : FilePath} {content : Bytes}

theorem makeParent_cases {result : Except WriteFailure Unit}
    (parent : tree.makeParent path = (after, result)) :
    KeepsBut [] tree after ∧
      ∀ failure, result = .error failure → failure.step = .makeDirectory := by
  unfold makeParent at parent
  split at parent
  · next above _ =>
      split at parent
      · obtain ⟨rfl, rfl⟩ := Prod.mk.inj parent
        exact ⟨.refl [] tree, fun _ failed => nomatch failed⟩
      · have makes := tree.keepsBut_makeDirectories above
        obtain ⟨rfl, rfl⟩ := Prod.mk.inj parent
        refine ⟨makes, fun failure failed => ?_⟩
        exact (WriteOutcome.ofStep_error (Prod.ext rfl failed)).1
  · obtain ⟨rfl, rfl⟩ := Prod.mk.inj parent
    exact ⟨.refl [] tree, fun _ failed => nomatch failed⟩

theorem replaceFromWritten_ok {file : Location}
    (done : tree.replaceFromWritten path file = (after, .ok ())) :
    tree.later.rename (stagingPath path) path = (after, .ok ()) := by
  unfold replaceFromWritten at done
  obtain ⟨safe, _, syncs, moves⟩ := WriteOutcome.next_ok done
  rw [sync_ok (WriteOutcome.ofStep_ok syncs)] at moves
  exact WriteOutcome.ofStep_ok moves

theorem replaceFromWritten_error {file : Location} {failure : WriteFailure}
    (stands : tree.fileAt? file = some content)
    (failed : tree.replaceFromWritten path file = (after, .error failure)) :
    KeepsBut [file] tree after ∧ failure.step.isLate = true ∧
      failure.step.Leaves content none (after.fileAt? file) := by
  unfold replaceFromWritten at failed
  rcases WriteOutcome.next_error failed with syncs | ⟨safe, _, syncs, moves⟩
  · obtain ⟨step, _, refused⟩ := WriteOutcome.ofStep_error syncs
    obtain ⟨keeps, beginning⟩ := sync_error stands refused
    rw [step]
    exact ⟨keeps, rfl, beginning⟩
  · obtain ⟨step, _, refused⟩ := WriteOutcome.ofStep_error moves
    rw [step, change_error refused, sync_ok (WriteOutcome.ofStep_ok syncs)]
    exact ⟨(keepsBut_later _ tree).trans (keepsBut_later _ _), rfl, stands⟩

theorem replaceFromOpened_error {file : Location} {failure : WriteFailure}
    {old : Bytes} (stands : tree.fileAt? file = some old)
    (failed : tree.replaceFromOpened path content file =
      (after, .error failure)) :
    KeepsBut [file] tree after ∧ failure.step.isLate = true ∧
      failure.step.Leaves content none (after.fileAt? file) := by
  unfold replaceFromOpened at failed
  rcases WriteOutcome.next_error failed with writes | ⟨written, _, writes, failed⟩
  · obtain ⟨step, _, refused⟩ := WriteOutcome.ofStep_error writes
    obtain ⟨keeps, beginning⟩ := writeAll_error stands refused
    rw [step]
    exact ⟨keeps, rfl, beginning⟩
  · obtain ⟨fills, stands⟩ := writeAll_ok stands (WriteOutcome.ofStep_ok writes)
    obtain ⟨keeps, late, leaves⟩ := replaceFromWritten_error stands failed
    exact ⟨fills.trans keeps, late, leaves⟩

/-- A write that succeeds has its content staged when it moves it into place. -/
theorem replaceFile_ok_cases
    (done : tree.replaceFile path content = (after, .ok ())) :
    ∃ staged, KeepsBut [(stagingPath path).place] tree staged ∧
      staged.fileAt? (stagingPath path).place = some content ∧
      staged.rename (stagingPath path) path = (after, .ok ()) := by
  unfold replaceFile replaceFromMade replaceFromOpened at done
  obtain ⟨made, _, parent, done⟩ := WriteOutcome.next_ok done
  obtain ⟨opened, file, opens, done⟩ := WriteOutcome.next_ok done
  obtain ⟨written, _, writes, done⟩ := WriteOutcome.next_ok done
  have makes := (makeParent_cases parent).1
  obtain ⟨rfl, creates, empty⟩ := create_ok (WriteOutcome.ofStep_ok opens)
  obtain ⟨fills, stands⟩ := writeAll_ok empty (WriteOutcome.ofStep_ok writes)
  have still : written.later.fileAt? (stagingPath path).place = some content := by
    rwa [fileAt?_later]
  refine ⟨written.later, ?_, still, replaceFromWritten_ok done⟩
  exact (((makes.mono (List.nil_subset _)).trans creates).trans fills).trans
    (keepsBut_later _ written)

/-- A file that was replaced can be replaced again, and holds its new content;
all others but the staged one are as they were. -/
theorem replaceFile_ok (done : tree.replaceFile path content = (after, .ok ())) :
    KeepsBut [(stagingPath path).place, path.place] tree after ∧
      after.Takes path ∧ after.fileAt? path.place = some content := by
  obtain ⟨staged, stages, stands, renamed⟩ := replaceFile_ok_cases done
  have moves := keepsBut_rename renamed
  obtain ⟨written, source, takes, rfl⟩ := rename_ok renamed
  obtain rfl : written = content := Option.some.inj (source.symm.trans stands)
  have file := fileAt?_put_file _
    (notDirectory_erase takes.free (stagingPath path).place) written
  have stay : staged.later.DirectoriesStay _ := moves.directories
  exact ⟨(stages.mono (by simp)).trans moves, takes.of_stay stay file, file⟩

theorem replaceFromMade_error {failure : WriteFailure}
    (failed : tree.replaceFromMade path content = (after, .error failure)) :
    KeepsBut [(stagingPath path).place] tree after ∧
      failure.step.Leaves content
        (tree.fileAt? (stagingPath path).place)
        (after.fileAt? (stagingPath path).place) := by
  unfold replaceFromMade at failed
  rcases WriteOutcome.next_error failed with opens | ⟨opened, file, opens, failed⟩
  · obtain ⟨step, _, refused⟩ := WriteOutcome.ofStep_error opens
    rw [step, change_error refused, fileAt?_later]
    exact ⟨keepsBut_later _ tree, rfl⟩
  · obtain ⟨rfl, creates, empty⟩ := create_ok (WriteOutcome.ofStep_ok opens)
    obtain ⟨keeps, late, leaves⟩ := replaceFromOpened_error empty failed
    exact ⟨creates.trans keeps, leaves.of_late late _⟩

/-- A write that fails touches no file but the one in which it stages, and that
one only when it had come to open it. -/
theorem replaceFile_error {failure : WriteFailure}
    (failed : tree.replaceFile path content = (after, .error failure)) :
    KeepsBut [(stagingPath path).place] tree after ∧
      failure.step.Leaves content
        (tree.fileAt? (stagingPath path).place)
        (after.fileAt? (stagingPath path).place) := by
  unfold replaceFile at failed
  rcases WriteOutcome.next_error failed with parent | ⟨made, _, parent, failed⟩
  · obtain ⟨makes, step⟩ := makeParent_cases parent
    rw [step failure rfl]
    exact ⟨makes.mono (List.nil_subset _), makes.files _ List.not_mem_nil⟩
  · have makes := (makeParent_cases parent).1
    obtain ⟨keeps, leaves⟩ := replaceFromMade_error failed
    rw [makes.files _ List.not_mem_nil] at leaves
    exact ⟨(makes.mono (List.nil_subset _)).trans keeps, leaves⟩

/-- A path that can be replaced keeps its file when replacing it fails, unless
the content is staged in that very file and the file was opened. -/
theorem fileAt?_of_failed {failure : WriteFailure} {old : Bytes}
    (stands : tree.fileAt? path.place = some old)
    (failed : tree.replaceFile path content = (after, .error failure))
    (spared : failure.step.isLate = true →
      (stagingPath path).place ≠ path.place) :
    after.fileAt? path.place = some old := by
  obtain ⟨keeps, leaves⟩ := replaceFile_error failed
  by_cases inPlace : (stagingPath path).place = path.place
  · rw [inPlace] at leaves
    cases step : failure.step with
    | makeDirectory | create =>
        rw [step] at leaves
        exact leaves.trans stands
    | write | sync | rename => exact absurd inPlace (spared (by rw [step]; rfl))
  · rw [keeps.files _ (by simpa using Ne.symm inPlace)]
    exact stands

end Steps

end FileTree

end Fragboard.Storage
