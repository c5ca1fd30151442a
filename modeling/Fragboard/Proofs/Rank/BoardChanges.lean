import Fragboard.Proofs.Rank.BoardOrder

/-!
# Changes of a match's leaderboard

A match changes its leaderboard in four ways: it enters a finished life, renames
a row, clears the board or loads a file.  Each of them keeps every score equal
to what the point table gives and the board within its capacity.

The order is kept as long as a fresh row is told apart from the rows that are
there.  Identities are 32-bit words that are handed out one after the other, so
this is certain until all of them have been used: `Numbered` counts them.
-/

namespace Fragboard.Rank

open Storage (Bytes FilePath)

/-- A finished life and the key of the row that it belongs to. -/
structure LifeEntry where
  name : String
  unique : Option String
  life : StatBlock

theorem Row.score_gain (row : Row) (points : PointTable) (delta : StatBlock) :
    (row.gain points delta).score = points.score (row.stats.merge delta) := by
  simp only [gain]

namespace Board

/-- Finds or creates the row of a life and merges the life into it. -/
def enter (board : Board) (entry : LifeEntry) : Board :=
  let (id, found) := board.findOrCreate entry.name entry.unique
  (found.update id entry.life).2

inductive Change where
  | enter (entry : LifeEntry)
  | rename (id : RankId) (name : String)
  | clear
  | load (path : FilePath) (content : Except Storage.Fault Bytes)

def change (board : Board) : Change → Board
  | .enter entry => board.enter entry
  | .rename id name => (board.rename? id name).getD board
  | .clear => board.clear
  | .load path content => (board.loadContent path content).2

def changes (board : Board) (list : List Change) : Board :=
  list.foldl change board

theorem changes_append (board : Board) (first second : List Change) :
    board.changes (first ++ second) = (board.changes first).changes second :=
  List.foldl_append

structure SameSettings (before after : Board) : Prop where
  capacity : after.capacity = before.capacity
  points : after.points = before.points

theorem SameSettings.refl (board : Board) : board.SameSettings board :=
  ⟨rfl, rfl⟩

theorem SameSettings.trans {first second third : Board}
    (upper : first.SameSettings second) (lower : second.SameSettings third) :
    first.SameSettings third :=
  ⟨lower.capacity.trans upper.capacity, lower.points.trans upper.points⟩

theorem sameSettings_findOrCreate (board : Board) (name : String)
    (unique : Option String) :
    board.SameSettings (board.findOrCreate name unique).2 := by
  unfold findOrCreate
  split
  · exact .refl board
  · exact ⟨rfl, rfl⟩

theorem sameSettings_update (board : Board) (id : RankId) (delta : StatBlock) :
    board.SameSettings (board.update id delta).2 := by
  cases found : Cursor.seek? id board.rows with
  | none =>
      rw [update_of_unknown delta found]
      exact .refl board
  | some cursor =>
      rw [update_of_found delta found]
      exact ⟨rfl, rfl⟩

theorem sameSettings_appendRecords (board : Board) (records : List RankRecord) :
    board.SameSettings (records.foldl appendRecord board) := by
  induction records generalizing board with
  | nil => exact .refl board
  | cons record records ih =>
      have first : board.SameSettings (board.appendRecord record) := ⟨rfl, rfl⟩
      exact first.trans (ih (board.appendRecord record))

theorem sameSettings_ofRecords (board : Board) (records : List RankRecord) :
    board.SameSettings (board.ofRecords records) := by
  have appended := sameSettings_appendRecords board.clear
    (records.mergeSort fun first second => first.position ≤ second.position)
  exact ⟨appended.capacity, appended.points⟩

theorem sameSettings_rename (board : Board) (id : RankId) (name : String) :
    board.SameSettings ((board.rename? id name).getD board) := by
  unfold rename?
  cases Cursor.seek? id board.rows with
  | none => exact .refl board
  | some cursor => exact ⟨rfl, rfl⟩

theorem sameSettings_loadBytes (board : Board) (bytes : Bytes) :
    board.SameSettings (board.loadBytes bytes).2 := by
  unfold loadBytes
  split
  · exact ⟨rfl, rfl⟩
  · exact sameSettings_ofRecords board _

theorem sameSettings_change (board : Board) (change : Change) :
    board.SameSettings (board.change change) := by
  cases change with
  | enter entry =>
      exact (sameSettings_findOrCreate board entry.name entry.unique).trans
        (sameSettings_update _ _ _)
  | rename id name => exact sameSettings_rename board id name
  | clear => exact ⟨rfl, rfl⟩
  | load path content =>
      cases content with
      | error fault => exact ⟨rfl, rfl⟩
      | ok bytes => exact sameSettings_loadBytes board bytes

theorem sameSettings_perform (board : Board) (call : Call) :
    board.SameSettings (board.perform call) := by
  cases call with
  | findOrCreate name unique =>
      exact sameSettings_findOrCreate board name unique
  | update id delta => exact sameSettings_update board id delta
  | rename id name => exact sameSettings_rename board id name
  | clear => exact ⟨rfl, rfl⟩
  | loadBytes bytes => exact sameSettings_loadBytes board bytes

theorem sameSettings_run (board : Board) (calls : List Call) :
    board.SameSettings (board.run calls) := by
  induction calls generalizing board with
  | nil => exact .refl board
  | cons call rest ih =>
      exact (sameSettings_perform board call).trans (ih (board.perform call))

theorem sameSettings_changes (board : Board) (list : List Change) :
    board.SameSettings (board.changes list) := by
  induction list generalizing board with
  | nil => exact .refl board
  | cons change rest ih =>
      exact (sameSettings_change board change).trans (ih (board.change change))

theorem exists_of_find? {board : Board} {name : String}
    {unique : Option String} {id : RankId}
    (found : board.find? name unique = some id) :
    ∃ row ∈ board.rows, row.id = id := by
  simp only [find?, Option.map_eq_some_iff] at found
  obtain ⟨row, first, same⟩ := found
  exact ⟨row, List.mem_of_find?_eq_some first, same⟩

/-- The row that `findOrCreate` names is there. -/
theorem exists_findOrCreate (board : Board) (name : String)
    (unique : Option String) :
    ∃ row ∈ (board.findOrCreate name unique).2.rows,
      row.id = (board.findOrCreate name unique).1 := by
  unfold findOrCreate
  split
  · next id found => exact exists_of_find? found
  · simp [append, evict]

theorem exists_cursor {board : Board} {id : RankId}
    (present : ∃ row ∈ board.rows, row.id = id) :
    ∃ cursor, Cursor.seek? id board.rows = some cursor := by
  cases found : Cursor.seek? id board.rows with
  | some cursor => exact ⟨cursor, rfl⟩
  | none =>
      obtain ⟨row, member, same⟩ := present
      exact absurd same (Cursor.seek?_eq_none_iff.mp found row member)

theorem mem_update {board : Board} {id : RankId} {delta : StatBlock} {row : Row}
    (member : row ∈ (board.update id delta).2.rows) :
    row ∈ board.rows ∨
      ∃ old ∈ board.rows, row = old.gain board.points delta := by
  cases found : Cursor.seek? id board.rows with
  | none =>
      rw [update_of_unknown delta found] at member
      exact .inl member
  | some cursor =>
      rw [update_of_found delta found] at member
      have settled := (board.settledCursor delta cursor).rows_perm.mem_iff.mp
        (List.mem_of_mem_take member)
      rw [settledCursor_others delta found, settledCursor_row] at settled
      rcases List.mem_cons.mp settled with updated | other
      · refine .inr ⟨cursor.row, ?_, updated⟩
        exact List.mem_of_find?_eq_some (Cursor.seek?_find found)
      · exact .inl (List.mem_of_mem_eraseP other)

theorem rename_of_unknown {board : Board} {id : RankId}
    (unknown : Cursor.seek? id board.rows = none) (name : String) :
    (board.rename? id name).getD board = board := by
  simp [rename?, unknown]

theorem rename_of_found {board : Board} {id : RankId} {cursor : Cursor}
    (found : Cursor.seek? id board.rows = some cursor) (name : String) :
    (board.rename? id name).getD board =
      { board with
        rows := (cursor.mapRow ({ · with name := name })).rows } := by
  simp [rename?, found]

/-- Whatever does not depend on the name is the same row for row. -/
theorem map_rename {α : Type} (part : Row → α)
    (blind : ∀ row name, part { row with name := name } = part row)
    (board : Board) (id : RankId) (name : String) :
    ((board.rename? id name).getD board).rows.map part =
      board.rows.map part := by
  cases found : Cursor.seek? id board.rows with
  | none => rw [rename_of_unknown found]
  | some cursor =>
      rw [rename_of_found found, ← Cursor.seek?_rows found]
      simp [Cursor.rows, Cursor.mapRow, blind]

/-- Up to their names the rows are those that were there before. -/
theorem exists_of_mem_rename {board : Board} {id : RankId} {name : String}
    {row : Row}
    (member : row ∈ ((board.rename? id name).getD board).rows) :
    ∃ old ∈ board.rows, ∃ kept, row = { old with name := kept } := by
  have same := board.map_rename ({ · with name := "" }) (fun _ _ => rfl) id
    name
  have image := List.mem_map_of_mem (f := fun row : Row =>
    { row with name := "" }) member
  rw [same] at image
  obtain ⟨old, oldMember, equal⟩ := List.mem_map.mp image
  refine ⟨old, oldMember, row.name, ?_⟩
  cases row
  cases old
  simp only [Row.mk.injEq] at equal ⊢
  exact ⟨equal.1.symm, trivial, equal.2.2.1.symm, equal.2.2.2.1.symm,
    equal.2.2.2.2.symm⟩

/-- Every score is the one that the point table gives. -/
def Scored (board : Board) : Prop :=
  ∀ row ∈ board.rows, row.score = board.points.score row.stats

theorem Scored.evict {board : Board} (scored : board.Scored) :
    board.evict.Scored :=
  fun row member => scored row (List.mem_of_mem_take member)

theorem Scored.append {board : Board} (scored : board.Scored)
    (name unique : String) (stats : StatBlock) :
    (board.append name unique stats).Scored := by
  intro row member
  rcases List.mem_append.mp member with old | fresh
  · exact scored row old
  · rw [List.mem_singleton.mp fresh]
    rfl

theorem Scored.findOrCreate {board : Board} (scored : board.Scored)
    (name : String) (unique : Option String) :
    (board.findOrCreate name unique).2.Scored := by
  unfold Board.findOrCreate
  split
  · exact scored
  · exact scored.evict.append _ _ _

theorem Scored.update {board : Board} (scored : board.Scored) (id : RankId)
    (delta : StatBlock) : (board.update id delta).2.Scored := by
  intro row member
  rw [(sameSettings_update board id delta).points]
  rcases mem_update member with same | ⟨old, _, updated⟩
  · exact scored row same
  · rw [updated]
    exact old.score_gain board.points delta

theorem Scored.rename {board : Board} (scored : board.Scored) (id : RankId)
    (name : String) : ((board.rename? id name).getD board).Scored := by
  intro row member
  obtain ⟨old, oldMember, kept, rfl⟩ := exists_of_mem_rename member
  rw [(sameSettings_rename board id name).points]
  exact scored old oldMember

theorem scored_clear (board : Board) : board.clear.Scored :=
  fun _ member => absurd member List.not_mem_nil

theorem Scored.appendRecords {board : Board} (scored : board.Scored)
    (records : List RankRecord) :
    (records.foldl appendRecord board).Scored := by
  induction records generalizing board with
  | nil => exact scored
  | cons record records ih => exact ih (scored.append _ _ _)

theorem scored_ofRecords (board : Board) (records : List RankRecord) :
    (board.ofRecords records).Scored := by
  have appended := (scored_clear board).appendRecords
    (records.mergeSort fun first second => first.position ≤ second.position)
  intro row member
  exact appended row (List.mem_mergeSort.mp (List.mem_of_mem_take member))

theorem scored_loadBytes (board : Board) (bytes : Bytes) :
    (board.loadBytes bytes).2.Scored := by
  unfold loadBytes
  split
  · exact scored_clear board
  · exact scored_ofRecords board _

theorem Scored.change {board : Board} (scored : board.Scored)
    (change : Change) : (board.change change).Scored := by
  cases change with
  | enter entry =>
      exact (scored.findOrCreate entry.name entry.unique).update _ _
  | rename id name => exact scored.rename id name
  | clear => exact scored_clear board
  | load path content =>
      cases content with
      | error fault => exact scored_clear board
      | ok bytes => exact scored_loadBytes board bytes

theorem Scored.perform {board : Board} (scored : board.Scored) (call : Call) :
    (board.perform call).Scored := by
  cases call with
  | findOrCreate name unique => exact scored.findOrCreate name unique
  | update id delta => exact scored.update id delta
  | rename id name => exact scored.rename id name
  | clear => exact scored_clear board
  | loadBytes bytes => exact scored_loadBytes board bytes

theorem Scored.run {board : Board} (scored : board.Scored)
    (calls : List Call) : (board.run calls).Scored := by
  induction calls generalizing board with
  | nil => exact scored
  | cons call rest ih => exact ih (scored.perform call)

theorem scored_run (capacity : Nat) (points : PointTable)
    (calls : List Call) : ((Board.empty capacity points).run calls).Scored :=
  Scored.run (fun _ member => absurd member List.not_mem_nil) calls

theorem length_update_le {board : Board} {id : RankId}
    (present : ∃ row ∈ board.rows, row.id = id) (delta : StatBlock) :
    (board.update id delta).2.rows.length ≤ board.capacity := by
  obtain ⟨cursor, found⟩ := exists_cursor present
  rw [update_of_found delta found]
  exact List.length_take_le _ _

theorem length_loadBytes_le (board : Board) (bytes : Bytes) :
    (board.loadBytes bytes).2.rows.length ≤ board.capacity := by
  unfold loadBytes
  split
  · exact Nat.zero_le _
  · next records _ =>
    rw [← (sameSettings_ofRecords board records).capacity]
    exact List.length_take_le _ _

theorem length_rename (board : Board) (id : RankId) (name : String) :
    ((board.rename? id name).getD board).rows.length = board.rows.length := by
  have same := congrArg List.length
    (board.map_rename Row.id (fun _ _ => rfl) id name)
  rwa [List.length_map, List.length_map] at same

/-- No change leaves more rows than the capacity admits. -/
theorem length_change_le {board : Board}
    (fits : board.rows.length ≤ board.capacity) (change : Change) :
    (board.change change).rows.length ≤ (board.change change).capacity := by
  rw [(sameSettings_change board change).capacity]
  cases change with
  | enter entry =>
      have entered := length_update_le
        (exists_findOrCreate board entry.name entry.unique) entry.life
      rw [(sameSettings_findOrCreate board _ _).capacity] at entered
      exact entered
  | rename id name =>
      rw [Board.change, length_rename]
      exact fits
  | clear => exact Nat.zero_le _
  | load path content =>
      cases content with
      | error fault => exact Nat.zero_le _
      | ok bytes => exact length_loadBytes_le board bytes

end Board

end Fragboard.Rank
