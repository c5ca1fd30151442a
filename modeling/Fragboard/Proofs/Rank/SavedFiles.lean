import Fragboard.Proofs.Rank.SaverRuns

/-!
# What the files hold after saving

Of several images written to one place the last one stays, for as long as no
other image is staged there.  `Attempt.Touches` says which attempts a place has to
be spared: those that put their image there and those that opened the file there
to stage it.
-/

namespace Fragboard.Rank

open Storage (Bytes FilePath FileTree Location)
open Storage.FileTree (stagingPath)

namespace Attempt

def path (attempt : Attempt) : FilePath :=
  attempt.job.path

@[simp] theorem path_ofOutcome (job : SaveJob)
    (outcome : FileTree.WriteOutcome Unit) :
    (ofOutcome job outcome).path = job.path :=
  rfl

/-- The attempt came to open the file in which it stages its image. -/
def staged (attempt : Attempt) : Bool :=
  match attempt.outcome with
  | .ok () => true
  | .error failure => failure.step.isLate

/-- The attempt has put its image at a place, or has staged it there. -/
def Touches (attempt : Attempt) (place : Location) : Prop :=
  attempt.succeeded = true ∧ attempt.path.place = place ∨
    attempt.staged = true ∧ (stagingPath attempt.path).place = place

instance (attempt : Attempt) (place : Location) :
    Decidable (attempt.Touches place) :=
  inferInstanceAs (Decidable (_ ∨ _))

end Attempt

/-- The file at a place is left alone by an attempt that does not touch it. -/
theorem fileAt?_of_not_touches {tree after : FileTree} {job : SaveJob}
    {result : Except FileTree.WriteFailure Unit} {place : Location}
    (wrote : tree.replaceFile job.path job.image = (after, result))
    (spared : ¬ (Attempt.ofOutcome job (after, result)).Touches place) :
    after.fileAt? place = tree.fileAt? place := by
  rw [Attempt.Touches, Attempt.path_ofOutcome] at spared
  obtain ⟨here, staged⟩ := not_or.mp spared
  rcases result with failure | done
  · obtain ⟨keeps, leaves⟩ := FileTree.replaceFile_error wrote
    by_cases inPlace : (stagingPath job.path).place = place
    · have early : failure.step.isLate = false :=
        Bool.eq_false_iff.mpr fun late => staged (And.intro late inPlace)
      rw [← inPlace]
      cases step : failure.step with
      | makeDirectory | create =>
          rw [step] at leaves
          exact leaves
      | write | sync | rename =>
          rw [step] at early
          cases early
    · exact keeps.files place (by simpa using Ne.symm inPlace)
  · obtain ⟨keeps, _⟩ := FileTree.replaceFile_ok wrote
    have apart : (stagingPath job.path).place ≠ place :=
      fun inPlace => staged ⟨rfl, inPlace⟩
    have other : job.path.place ≠ place := fun same => here ⟨rfl, same⟩
    exact keeps.files place (by simpa using ⟨apart.symm, other.symm⟩)

/-- Every path that was written still leads to its place, and an image is where it
was put until the place is touched again. -/
structure Record.Upheld (record : Record) : Prop where
  reached : ∀ attempt ∈ record.attempts, attempt.succeeded = true →
    record.tree.target attempt.path = .ok attempt.path.place ∧
      attempt.path.endsInSlash = false
  stands : ∀ before last after, record.attempts = before ++ last :: after →
    last.succeeded = true →
    (∀ later ∈ after, ¬ later.Touches last.path.place) →
    record.tree.fileAt? last.path.place = some last.job.image

namespace Record

variable {record : Record}

theorem Upheld.attempt (upheld : record.Upheld) (job : SaveJob) :
    (record.attempt job).Upheld := by
  cases wrote : record.tree.replaceFile job.path job.image with
  | mk tree result =>
    let new := Attempt.ofOutcome job (tree, result)
    have next : record.attempt job =
        { attempts := record.attempts ++ [new], tree := tree } := by
      rw [Record.attempt, wrote]
      rfl
    rw [next]
    constructor
    · intro attempt member succeeded
      rcases List.mem_append.mp member with earlier | newest
      · have stay : record.tree.DirectoriesStay tree := by
          cases result with
          | ok done => exact (FileTree.replaceFile_ok wrote).1.directories
          | error failure => exact (FileTree.replaceFile_error wrote).1.directories
        obtain ⟨found, noSlash⟩ := upheld.reached attempt earlier succeeded
        exact ⟨FileTree.target_of_stay stay found, noSlash⟩
      · obtain rfl : attempt = new := List.mem_singleton.mp newest
        cases result with
        | error failure => contradiction
        | ok done =>
            obtain ⟨_, takes, _⟩ := FileTree.replaceFile_ok wrote
            exact ⟨takes.target, takes.noSlash⟩
    · intro before last after split succeeded later
      rcases List.eq_nil_or_concat after with rfl | ⟨rest, newest, rfl⟩
      · obtain ⟨_, same⟩ := List.append_inj' split rfl
        obtain rfl : new = last := List.head_eq_of_cons_eq same
        cases result with
        | error failure => contradiction
        | ok done => exact (FileTree.replaceFile_ok wrote).2.2
      · rw [List.concat_eq_append, ← List.cons_append, ← List.append_assoc]
          at split
        obtain ⟨whole, same⟩ := List.append_inj' split rfl
        obtain rfl : new = newest := List.head_eq_of_cons_eq same
        have spared : ¬ new.Touches last.path.place := later new (by simp)
        have stood := upheld.stands before last rest whole succeeded
          fun attempt member => later attempt (by simp [member])
        exact (fileAt?_of_not_touches wrote spared).trans stood

theorem Upheld.attempts (upheld : record.Upheld) (jobs : List SaveJob) :
    (jobs.foldl Record.attempt record).Upheld := by
  induction jobs generalizing record with
  | nil => exact upheld
  | cons job rest ih => exact ih (upheld.attempt job)

end Record

/-- After saving, every path that was written reads as the image that was put last
where it leads, unless an image has been staged there since. -/
theorem read_after_saving (tree : FileTree) (jobs : List SaveJob) :
    let ended := jobs.foldl Record.attempt { attempts := [], tree := tree }
    ∀ before last after, ended.attempts = before ++ last :: after →
      last.succeeded = true →
      (∀ later ∈ after, ¬ later.Touches last.path.place) →
      ∀ attempt ∈ ended.attempts, attempt.succeeded = true →
        attempt.path.place = last.path.place →
        ended.tree.read attempt.path = .ok last.job.image := by
  intro ended before last after split succeeded later attempt member done same
  have none : ({ attempts := [], tree := tree } : Record).Upheld := by
    constructor
    · intro attempt member
      contradiction
    · intro before last after split
      simp at split
  have upheld : ended.Upheld := none.attempts jobs
  obtain ⟨found, noSlash⟩ := upheld.reached attempt member done
  apply FileTree.read_of_target found noSlash
  rw [same]
  exact upheld.stands before last after split succeeded later

/-- A board that is saved alone can be read back, if its file can be written. -/
theorem read_after_save (board : Board) {tree : FileTree} {path : FilePath}
    (succeeds : (tree.replaceFile path board.encode).2 = .ok ()) :
    ((Saving.start board tree).play [.submit path]).shutdown.tree.read path =
      .ok board.encode := by
  have counted := (Saving.counted_start board tree).play [.submit path]
  have left : ((Saving.start board tree).play [.submit path]).shutdown.tree =
      (tree.replaceFile path board.encode).1 := Saving.tree_shutdown counted
  obtain ⟨_, takes, stands⟩ := FileTree.replaceFile_ok
    (Prod.ext rfl succeeds)
  rw [left]
  exact FileTree.read_of_takes takes stands

end Fragboard.Rank
