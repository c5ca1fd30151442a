import Fragboard.Proofs.Rank.SettledCursor
import Fragboard.Rank.Persistence

/-!
# The order of the leaderboard

An update puts its own row where it belongs and leaves the others as they stand.
So it ends with an ordered board exactly when the other rows that stay on the
board were in order before.  Loading an image sorts all rows.

Fresh rows are the reason for the condition.  They are appended below rows whose
score may be negative, and they stay there until their own first update: while
two of them wait, the first update cannot restore the order
(`update_beside_waiting_row`).
-/

namespace Fragboard.Rank

open Storage (Bytes)

namespace Board

/-- A call that changes a board. -/
inductive Call where
  | findOrCreate (name : String) (unique : Option String)
  | update (id : RankId) (delta : StatBlock)
  | rename (id : RankId) (name : String)
  | clear
  | loadBytes (bytes : Bytes)

def perform (board : Board) : Call → Board
  | .findOrCreate name unique => (board.findOrCreate name unique).2
  | .update id delta => (board.update id delta).2
  | .rename id name => (board.rename? id name).getD board
  | .clear => board.clear
  | .loadBytes bytes => (board.loadBytes bytes).2

def run (board : Board) (calls : List Call) : Board :=
  calls.foldl perform board

/-- The rows other than the first one with an identity. -/
def others (board : Board) (id : RankId) : List Row :=
  board.rows.eraseP (·.id == id)

/-- The other rows that an update leaves on the board.  The updated row takes up
one place, unless it is unknown or was itself dropped. -/
def keptOthers (board : Board) (id : RankId) (delta : StatBlock) : List Row :=
  let (position, after) := board.update id delta
  (board.others id).take
    (after.rows.length - if position.isSome then 1 else 0)

/-- The cursor on an updated row, moved to its place. -/
def settledCursor (board : Board) (delta : StatBlock) (cursor : Cursor) :
    Cursor :=
  (cursor.mapRow (·.gain board.points delta)).settle

section Update

variable {board : Board} {id : RankId} {cursor : Cursor} (delta : StatBlock)

theorem settledCursor_row :
    (board.settledCursor delta cursor).row =
      cursor.row.gain board.points delta := by
  simp [settledCursor]

theorem settledCursor_others
    (found : Cursor.seek? id board.rows = some cursor) :
    (board.settledCursor delta cursor).others = board.others id := by
  rw [settledCursor, Cursor.settle_others, Cursor.mapRow_others,
    Cursor.seek?_others found, others]

theorem update_of_unknown (unknown : Cursor.seek? id board.rows = none) :
    board.update id delta = (none, board) := by
  simp [update, unknown]

/-- What an update does to a board that has the row. -/
theorem update_of_found (found : Cursor.seek? id board.rows = some cursor) :
    board.update id delta =
      (if (board.settledCursor delta cursor).above.length < board.capacity
        then some ((board.settledCursor delta cursor).above.length + 1)
        else none,
      { board with
        rows :=
          (board.settledCursor delta cursor).rows.take board.capacity }) := by
  let settled := board.settledCursor delta cursor
  have inside : settled.above.length < settled.rows.length := by
    simp [Cursor.rows]
  have opened : board.update id delta =
      (if settled.above.length + 1 ≤ (settled.rows.take board.capacity).length
        then some (settled.above.length + 1) else none,
      { board with rows := settled.rows.take board.capacity }) := by
    simp only [update, found]
    rfl
  have survives : settled.above.length + 1 ≤
      (settled.rows.take board.capacity).length ↔
        settled.above.length < board.capacity := by
    rw [List.length_take]
    omega
  rw [opened]
  simp only [survives, settled]

/-- An update restores the order exactly when the other rows that it keeps were
in order before. -/
theorem descending_update_iff (board : Board) (id : RankId) :
    Descending (board.update id delta).2.rows ↔
      Descending (board.keptOthers id delta) := by
  cases found : Cursor.seek? id board.rows with
  | none =>
      have untouched : board.others id = board.rows := by
        apply List.eraseP_of_forall_not
        simpa using Cursor.seek?_eq_none_iff.mp found
      simp [keptOthers, update_of_unknown delta found, untouched]
  | some cursor =>
      let settled := board.settledCursor delta cursor
      have others : settled.others = board.others id :=
        settledCursor_others delta found
      have length : settled.rows.length = settled.others.length + 1 := by
        simpa using settled.rows_perm.length_eq
      have inside : settled.above.length ≤ settled.others.length := by
        simp [Cursor.others]
      simp only [keptOthers, update_of_found delta found, ← others,
        List.length_take]
      by_cases kept : settled.above.length < board.capacity
      · have sameCut : settled.others.take (board.capacity - 1) =
            settled.others.take
              (min board.capacity settled.rows.length - 1) := by
          rw [List.take_eq_take_iff]
          omega
        have order := (Cursor.settle_settled
          (cursor.mapRow (·.gain board.points delta))).descending_take_iff kept
        rw [← settledCursor, sameCut] at order
        simpa [settled, kept] using order
      · have dropped : board.capacity ≤ settled.above.length := by omega
        have sameCut : min board.capacity settled.rows.length =
            board.capacity := by omega
        simp [settled, kept, sameCut, Cursor.take_rows_of_le dropped]

end Update

theorem outranks_trans (first second third : Row)
    (upper : outranks first second) (lower : outranks second third) :
    outranks first third := by
  simp only [outranks, decide_eq_true_eq] at *
  exact Int32.le_trans lower upper

theorem outranks_total (first second : Row) :
    outranks first second || outranks second first := by
  simp only [outranks, Bool.or_eq_true, decide_eq_true_eq]
  exact Int32.le_total _ _

theorem descending_mergeSort (rows : List Row) :
    Descending (rows.mergeSort outranks) := by
  have sorted := List.pairwise_mergeSort outranks_trans outranks_total rows
  exact sorted.imp fun higher => by simpa [outranks] using higher

theorem descending_ofRecords (board : Board) (records : List RankRecord) :
    Descending (board.ofRecords records).rows := by
  unfold ofRecords
  exact (descending_mergeSort _).take _

/-- A load leaves an ordered board; the board of a rejected load is empty. -/
theorem descending_loadBytes (board : Board) (bytes : Bytes) :
    Descending (board.loadBytes bytes).2.rows := by
  unfold loadBytes
  split
  · exact List.Pairwise.nil
  · exact descending_ofRecords board _

/-- Whatever was called before, an update ends with an ordered board exactly
when the other rows that it keeps were in order, and a load always does. -/
theorem descending_after_calls (capacity : Nat) (points : PointTable)
    (calls : List Call) (id : RankId) (delta : StatBlock) (bytes : Bytes) :
    let before := (Board.empty capacity points).run calls
    (Descending (before.perform (.update id delta)).rows ↔
      Descending (before.keptOthers id delta)) ∧
    Descending (before.perform (.loadBytes bytes)).rows := by
  intro before
  exact ⟨descending_update_iff delta before id,
    descending_loadBytes before bytes⟩

/-- Two rows are created below one of negative score; the update of the later
one leaves the earlier one below. -/
theorem update_beside_waiting_row :
    let calls : List Call :=
      [.findOrCreate "a" none,
        .update { number := 0 } (StatBlock.zero.award (-5)),
        .findOrCreate "b" none, .findOrCreate "c" none,
        .update { number := 2 } StatBlock.zero]
    ¬Descending ((Board.empty 10 PointTable.blank).run calls).rows := by
  intro calls sorted
  have scores : ((Board.empty 10 PointTable.blank).run calls).rows.map
      Row.score = [-5, 0, 0] := by decide
  have sortedScores : [(-5 : Int32), 0, 0].Pairwise (fun higher lower =>
      lower ≤ higher) := by
    rw [← scores]
    exact List.pairwise_map.mpr sorted
  revert sortedScores
  decide

end Board

end Fragboard.Rank
