import Fragboard.Proofs.MergedBlocks
import Fragboard.Proofs.Rank.BoardChanges
import Fragboard.Rank.Report
import Mathlib.Algebra.BigOperators.Group.List.Basic
import Mathlib.Algebra.Ring.Int.Defs

/-!
# Sums of the counters on a board

Entering a life raises the sum of each counter over all rows by what the life
counted, as long as nothing is lost: no row is dropped and no counter stops at
a bound.  Which row takes the life makes no difference to the sums.
-/

namespace Fragboard

namespace Rank

/-- The sum of a counter over some rows. -/
def rowsTotal (counter : Counter) (rows : List Row) : Int :=
  (rows.map fun row => (row.stats.get counter).toInt).sum

@[simp] theorem rowsTotal_cons (counter : Counter) (row : Row)
    (rows : List Row) :
    rowsTotal counter (row :: rows) =
      (row.stats.get counter).toInt + rowsTotal counter rows := by
  simp [rowsTotal]

theorem rowsTotal_perm (counter : Counter) {first second : List Row}
    (same : first.Perm second) :
    rowsTotal counter first = rowsTotal counter second :=
  (same.map _).sum_eq

namespace Board

/-- The sum of a counter over the whole board. -/
def total (board : Board) (counter : Counter) : Int :=
  rowsTotal counter board.rows

/-- The summary of a printed board shows these sums. -/
theorem sum_eq_total (board : Board) (counter : Counter) :
    Report.sum board counter = board.total counter := by
  have summed (rows : List Row) (start : Int) :
      rows.foldl (fun total row => total + (row.stats.get counter).toInt)
        start = start + rowsTotal counter rows := by
    induction rows generalizing start with
    | nil => simp [rowsTotal]
    | cons row rows ih =>
        rw [List.foldl_cons, ih, rowsTotal_cons]
        omega
  rw [Report.sum, summed, total]
  omega

/-- Entering a life drops no row and stops no counter at a bound. -/
structure EntersExactly (board : Board) (entry : LifeEntry) : Prop where
  fits : (board.findOrCreate entry.name entry.unique).2.rows.length ≤
    board.capacity
  merges : ∀ row ∈ (board.findOrCreate entry.name entry.unique).2.get?
      (board.findOrCreate entry.name entry.unique).1,
    row.stats.MergesExactly entry.life

instance (board : Board) (entry : LifeEntry) :
    Decidable (board.EntersExactly entry) :=
  decidable_of_iff
    ((board.findOrCreate entry.name entry.unique).2.rows.length ≤
        board.capacity ∧
      ∀ row ∈ (board.findOrCreate entry.name entry.unique).2.get?
          (board.findOrCreate entry.name entry.unique).1,
        row.stats.MergesExactly entry.life)
    ⟨fun both => ⟨both.1, both.2⟩,
      fun lossless => ⟨lossless.fits, lossless.merges⟩⟩

/-- A change enters its life exactly, if it enters one. -/
def ChangeExactly (board : Board) : Change → Prop
  | .enter entry => board.EntersExactly entry
  | .rename _ _ | .clear | .load _ _ => True

instance (board : Board) : DecidablePred board.ChangeExactly
  | .enter entry => inferInstanceAs (Decidable (board.EntersExactly entry))
  | .rename _ _ | .clear | .load _ _ => .isTrue trivial

def ChangesExactly (board : Board) : List Change → Prop
  | [] => True
  | change :: rest =>
    board.ChangeExactly change ∧ (board.change change).ChangesExactly rest

instance decidableChangesExactly :
    (board : Board) → DecidablePred board.ChangesExactly
  | _, [] => .isTrue trivial
  | board, change :: rest =>
    have := decidableChangesExactly (board.change change) rest
    inferInstanceAs (Decidable (board.ChangeExactly change ∧
      (board.change change).ChangesExactly rest))

theorem changesExactly_append {board : Board} {first second : List Change} :
    board.ChangesExactly (first ++ second) ↔
      board.ChangesExactly first ∧
        (board.changes first).ChangesExactly second := by
  induction first generalizing board with
  | nil => simp [ChangesExactly, changes]
  | cons change rest ih =>
      simp only [List.cons_append, ChangesExactly, ih, and_assoc]
      rfl

/-- An empty row is added, or none. -/
theorem total_findOrCreate (board : Board) (name : String)
    (unique : Option String) (counter : Counter)
    (fits : (board.findOrCreate name unique).2.rows.length ≤ board.capacity) :
    (board.findOrCreate name unique).2.total counter =
      board.total counter := by
  unfold findOrCreate at fits ⊢
  cases found : board.find? name unique with
  | some id => rfl
  | none =>
      have whole : board.rows.take board.capacity = board.rows := by
        apply List.take_of_length_le
        simp only [found, append, evict, List.length_append,
          List.length_take, List.length_singleton] at fits
        omega
      simp [total, rowsTotal, append, evict, whole]

/-- What an update adds goes to one row only. -/
theorem total_update {board : Board} {id : RankId} {delta : StatBlock}
    (present : ∃ row ∈ board.rows, row.id = id)
    (fits : board.rows.length ≤ board.capacity)
    (merges : ∀ row ∈ board.get? id, row.stats.MergesExactly delta)
    (counter : Counter) :
    (board.update id delta).2.total counter =
      board.total counter + (delta.get counter).toInt := by
  obtain ⟨cursor, found⟩ := exists_cursor present
  let settled := board.settledCursor delta cursor
  have row : settled.row = cursor.row.gain board.points delta :=
    settledCursor_row delta
  have others : settled.others = cursor.others :=
    (settledCursor_others delta found).trans (Cursor.seek?_others found).symm
  have before := rowsTotal_perm counter cursor.rows_perm
  have after := rowsTotal_perm counter settled.rows_perm
  have length : settled.rows.length = board.rows.length := by
    rw [← Cursor.seek?_rows found, settled.rows_perm.length_eq,
      cursor.rows_perm.length_eq, others, List.length_cons, List.length_cons]
  have whole : settled.rows.take board.capacity = settled.rows :=
    List.take_of_length_le (by omega)
  have gained := (merges cursor.row (Cursor.seek?_find found)).toInt_get counter
  have updated : (board.update id delta).2.total counter =
      rowsTotal counter settled.rows := by
    rw [update_of_found delta found]
    exact congrArg (rowsTotal counter) whole
  have stats : settled.row.stats = cursor.row.stats.merge delta := by
    rw [row, Row.gain]
  rw [Cursor.seek?_rows found, rowsTotal_cons] at before
  rw [rowsTotal_cons, others, stats, gained] at after
  rw [updated, after, total, before]
  omega

theorem total_enter {board : Board} {entry : LifeEntry}
    (lossless : board.EntersExactly entry) (counter : Counter) :
    (board.enter entry).total counter =
      board.total counter + (entry.life.get counter).toInt := by
  have settings := sameSettings_findOrCreate board entry.name entry.unique
  have fits := lossless.fits
  rw [← settings.capacity] at fits
  have entered := total_update
    (exists_findOrCreate board entry.name entry.unique) fits lossless.merges
    counter
  rw [total_findOrCreate board _ _ counter lossless.fits] at entered
  exact entered

theorem total_rename (board : Board) (id : RankId) (name : String)
    (counter : Counter) :
    ((board.rename? id name).getD board).total counter =
      board.total counter :=
  congrArg List.sum (board.map_rename _ (fun _ _ => rfl) id name)

end Board

end Rank

end Fragboard
