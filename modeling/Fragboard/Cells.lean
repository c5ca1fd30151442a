/-!
# Fixed tables

A table with one cell for each index below a bound.  Players, weapons and
counters are all kept in such tables, so every look-up is total.  Reading after
a change is described by `Cells.get_alter`, and two tables are equal when they
agree at every index (`Cells.ext_get`).
-/

namespace Fragboard

/-- One cell for each index below `size`. -/
structure Cells (size : Nat) (α : Type) where
  rows : Vector α size
deriving DecidableEq

namespace Cells

variable {size : Nat} {α β : Type}

def fill (value : α) : Cells size α :=
  { rows := Vector.replicate size value }

/-- The table whose cell at each index is given by a function. -/
def tabulate (value : Fin size → α) : Cells size α :=
  { rows := Vector.ofFn value }

def get (cells : Cells size α) (index : Fin size) : α :=
  cells.rows[index]

def set (cells : Cells size α) (index : Fin size) (value : α) : Cells size α :=
  { rows := cells.rows.set index value }

/-- Changes one cell and leaves the others alone. -/
def alter (cells : Cells size α) (index : Fin size) (change : α → α) :
    Cells size α :=
  cells.set index (change (cells.get index))

def zipWith (combine : α → α → β) (left right : Cells size α) : Cells size β :=
  tabulate fun index => combine (left.get index) (right.get index)

def toList (cells : Cells size α) : List α :=
  cells.rows.toList

instance [Inhabited α] : Inhabited (Cells size α) :=
  ⟨fill default⟩

@[simp] theorem get_fill (value : α) (index : Fin size) :
    (fill value).get index = value := by
  simp [fill, get]

@[simp] theorem get_tabulate (value : Fin size → α) (index : Fin size) :
    (tabulate value).get index = value index := by
  simp [tabulate, get]

theorem get_set (cells : Cells size α) (index other : Fin size) (value : α) :
    (cells.set index value).get other =
      if index = other then value else cells.get other := by
  simp [set, get, Vector.getElem_set, Fin.ext_iff]

theorem get_alter (cells : Cells size α) (index other : Fin size)
    (change : α → α) :
    (cells.alter index change).get other =
      if index = other then change (cells.get other) else cells.get other := by
  unfold alter
  rw [get_set]
  split
  · next same => rw [same]
  · rfl

@[simp] theorem get_zipWith (combine : α → α → β)
    (left right : Cells size α) (index : Fin size) :
    (zipWith combine left right).get index =
      combine (left.get index) (right.get index) := by
  simp [zipWith]

theorem ext_get {left right : Cells size α}
    (agree : ∀ index, left.get index = right.get index) : left = right := by
  cases left with
  | mk leftRows =>
    cases right with
    | mk rightRows =>
      congr 1
      apply Vector.ext
      intro index bound
      exact agree ⟨index, bound⟩

end Cells

end Fragboard
