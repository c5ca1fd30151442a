import Fragboard.Proofs.Rank.BoardChanges
import Fragboard.Proofs.Rank.ImageExactness
import Fragboard.Proofs.Rank.StoredNames

/-!
# Saving and loading a leaderboard

A board that loads the image of another reads all of its rows.  It numbers them
on from its own next identity, keeps of each name what a field keeps, scores
them by its own table, sorts them and drops what exceeds its capacity.  The sort
is stable, so an ordered board comes back in its own order when the tables agree.
-/

namespace Fragboard.Rank

open Storage (Bytes FilePath)

/-- Rows in order of falling score, those of one score as they stood before. -/
structure StableSort (rows sorted : List Row) : Prop where
  descending : Descending sorted
  stable : ∀ score : Int32,
    sorted.filter (·.score == score) = rows.filter (·.score == score)

/-- A sort leaves elements of one level as they stood. -/
theorem filter_mergeSort {α : Type} {before : α → α → Bool}
    (trans : ∀ first second third, before first second →
      before second third → before first third)
    (total : ∀ first second, before first second || before second first)
    {level : α → Bool}
    (same : ∀ first second, level first = true → level second = true →
      before first second = true) (list : List α) :
    (list.mergeSort before).filter level = list.filter level := by
  have even : (list.filter level).Pairwise
      fun first second => before first second := by
    apply List.pairwise_filter.mpr
    exact List.pairwise_of_forall same
  have kept := (List.sublist_mergeSort trans total even
    List.filter_sublist).filter level
  rw [List.filter_filter] at kept
  simp only [Bool.and_self] at kept
  have length := ((List.mergeSort_perm list before).filter level).length_eq
  exact (kept.eq_of_length length.symm).symm

theorem stableSort_mergeSort (rows : List Row) :
    StableSort rows (rows.mergeSort Board.outranks) := by
  constructor
  · exact Board.descending_mergeSort rows
  · intro score
    apply filter_mergeSort Board.outranks_trans Board.outranks_total
    intro first second firstHas secondHas
    rw [beq_iff_eq] at firstHas secondHas
    simp [Board.outranks, firstHas, secondHas]

/-- A row with its names as a rank file keeps them. -/
def Row.kept (row : Row) : Row :=
  { row with
    name := (NameField.pack row.name).unpack
    unique := (NameField.pack row.unique).unpack }

namespace Board

/-- The identity handed out when so many others have been. -/
def idAfter (board : Board) (count : Nat) : RankId :=
  { number := board.nextId + UInt32.ofNat count }

/-- The row that a board makes of a record when so many others were read. -/
def rowOf (board : Board) (count : Nat) (record : RankRecord) : Row :=
  { id := board.idAfter count
    name := record.name.unpack
    unique := record.unique.unpack
    stats := record.stats
    score := board.points.score record.stats }

theorem rows_appendRecords (board : Board) (records : List RankRecord) :
    (records.foldl appendRecord board).rows =
      board.rows ++ records.mapIdx board.rowOf := by
  induction records generalizing board with
  | nil => simp
  | cons record records ih =>
      have next (count : Nat) : (board.appendRecord record).idAfter count =
          board.idAfter (count + 1) := by
        simp only [idAfter, appendRecord, append, UInt32.ofNat_add]
        rw [UInt32.add_assoc, UInt32.add_comm 1]
        rfl
      have later : (board.appendRecord record).rowOf =
          fun count => board.rowOf (count + 1) := by
        funext count other
        simp only [rowOf, next]
        rfl
      have first : (board.appendRecord record).rows =
          board.rows ++ [board.rowOf 0 record] := by
        simp [appendRecord, append, rowOf, idAfter]
      rw [List.foldl_cons, ih, later, first, List.mapIdx_cons,
        List.append_assoc, List.singleton_append]

theorem rows_ofRecords (board : Board) (records : List RankRecord) :
    (board.ofRecords records).rows =
      (((records.mergeSort fun first second =>
        first.position ≤ second.position).mapIdx board.rowOf).mergeSort
          outranks).take board.capacity := by
  have appended := rows_appendRecords board.clear
    (records.mergeSort fun first second => first.position ≤ second.position)
  have settings := sameSettings_appendRecords board.clear
    (records.mergeSort fun first second => first.position ≤ second.position)
  simp only [ofRecords, evict, sortByScore, appended, settings.capacity]
  rfl

/-- Saved rows as a board reads them, in the order in which they were saved. -/
def reread (board : Board) (rows : List Row) : List Row :=
  rows.mapIdx fun index row =>
    { row.kept with
      id := board.idAfter index
      score := board.points.score row.stats }

/-- Rows are saved under rising positions. -/
theorem mergeSort_toRecords {rows : List Row}
    (countable : rows.length < UInt32.size) :
    ((rows.mapIdx fun index row => row.toRecord index).mergeSort
      fun first second => first.position ≤ second.position) =
        rows.mapIdx fun index row => row.toRecord index := by
  apply List.mergeSort_of_pairwise
  apply List.pairwise_iff_getElem.mpr
  intro first second firstInside secondInside before
  rw [List.length_mapIdx] at firstInside secondInside
  simp only [List.getElem_mapIdx, Row.toRecord, decide_eq_true_eq,
    UInt32.le_iff_toNat_le]
  rw [UInt32.toNat_ofNat_of_lt' (by omega),
    UInt32.toNat_ofNat_of_lt' (by omega)]
  omega

theorem length_encode (board : Board) :
    board.encode.length =
      board.rows.length * Image.recordSize + Image.headerSize := by
  rw [encode, Image.length_encode, List.length_mapIdx]

theorem rows_loadBytes_encode (saved target : Board)
    (countable : saved.rows.length < UInt32.size) :
    (target.loadBytes saved.encode).2.rows =
      ((target.reread saved.rows).mergeSort outranks).take
        target.capacity := by
  have decoded : Image.decode saved.encode =
      .ok (saved.rows.mapIdx fun index row => row.toRecord index) :=
    Image.decode_encode (by simpa using countable)
  have read : (saved.rows.mapIdx fun index row => row.toRecord index).mapIdx
      target.rowOf = target.reread saved.rows :=
    List.mapIdx_mapIdx
  simp only [loadBytes, decoded, rows_ofRecords,
    mergeSort_toRecords countable, read]

theorem loadBytes_encode_succeeds (saved target : Board)
    (countable : saved.rows.length < UInt32.size) :
    (target.loadBytes saved.encode).1 =
      .ok (target.loadBytes saved.encode).2.rows.length := by
  have decoded : Image.decode saved.encode =
      .ok (saved.rows.mapIdx fun index row => row.toRecord index) :=
    Image.decode_encode (by simpa using countable)
  simp only [loadBytes, decoded]

section SameTable

variable {saved target : Board} (scored : saved.Scored)
  (sameTable : target.points = saved.points)

include scored sameTable

/-- By the same table, a row is worth what it was. -/
theorem reread_of_scored :
    target.reread saved.rows = saved.rows.mapIdx fun index row =>
      { row.kept with id := target.idAfter index } := by
  apply List.mapIdx_eq_mapIdx_iff.mpr
  intro index inside
  have worth := scored saved.rows[index] (List.getElem_mem inside)
  rw [sameTable, ← worth]
  rfl

theorem descending_reread (sorted : Descending saved.rows) :
    Descending (target.reread saved.rows) := by
  have scores : (target.reread saved.rows).map Row.score =
      saved.rows.map Row.score := by
    rw [reread_of_scored scored sameTable]
    apply List.ext_getElem
    · simp
    · intro index _ _
      simp [Row.kept]
  rw [descending_iff_scores, scores, ← descending_iff_scores]
  exact sorted

/-- An ordered board that fits comes back in its own order. -/
theorem rows_loadBytes_encode_of_descending
    (countable : saved.rows.length < UInt32.size)
    (sorted : Descending saved.rows)
    (fits : saved.rows.length ≤ target.capacity) :
    (target.loadBytes saved.encode).2.rows = target.reread saved.rows := by
  have order : (target.reread saved.rows).Pairwise
      fun first second => outranks first second := by
    apply (descending_reread scored sameTable sorted).imp
    intro higher lower notRising
    simpa [outranks] using notRising
  have length : (target.reread saved.rows).length = saved.rows.length := by
    simp [reread]
  rw [rows_loadBytes_encode saved target countable,
    List.mergeSort_of_pairwise order, List.take_of_length_le (by omega)]

end SameTable

/-- Without a NUL in any name, rows that were read are saved as the same
bytes. -/
theorem encode_of_reread {saved target loaded : Board}
    (noNul : ∀ row ∈ saved.rows,
      '\x00' ∉ row.name.toList ∧ '\x00' ∉ row.unique.toList)
    (read : loaded.rows = target.reread saved.rows) :
    loaded.encode = saved.encode := by
  rw [encode, encode, read, reread, List.mapIdx_mapIdx]
  apply congrArg Image.encode
  apply List.mapIdx_eq_mapIdx_iff.mpr
  intro index inside
  obtain ⟨name, unique⟩ := noNul saved.rows[index] (List.getElem_mem inside)
  simp only [Function.comp_apply, Row.toRecord, Row.kept,
    NameField.pack_unpack_pack name, NameField.pack_unpack_pack unique]

/-- Loading the image of a board succeeds, whatever is loaded into, and leaves
the first of the saved rows in stable order of the scores that the loading board
gives them.  With one table and room for all, an ordered board comes back row by
row, and without a NUL in its names it is saved as the same bytes again. -/
theorem loadBytes_encode (capacity : Nat) (points : PointTable)
    (calls : List Call) (target : Board) :
    let saved := (Board.empty capacity points).run calls
    let loaded := (target.loadBytes saved.encode).2
    saved.rows.length < UInt32.size →
      (target.loadBytes saved.encode).1 = .ok loaded.rows.length ∧
      (∃ sorted, StableSort (target.reread saved.rows) sorted ∧
        loaded.rows = sorted.take target.capacity) ∧
      (Descending saved.rows → saved.rows.length ≤ target.capacity →
        target.points = points →
        (loaded.rows = saved.rows.mapIdx fun index row =>
          { row.kept with id := target.idAfter index }) ∧
        ((∀ row ∈ saved.rows,
            '\x00' ∉ row.name.toList ∧ '\x00' ∉ row.unique.toList) →
          loaded.encode = saved.encode)) := by
  intro saved loaded countable
  have scored : saved.Scored := scored_run capacity points calls
  have table : saved.points = points :=
    (sameSettings_run (Board.empty capacity points) calls).points
  refine ⟨loadBytes_encode_succeeds saved target countable, ?_, ?_⟩
  · exact ⟨_, stableSort_mergeSort _,
      rows_loadBytes_encode saved target countable⟩
  · intro sorted fits sameTable
    have sameAsSaved : target.points = saved.points := sameTable.trans table.symm
    have read : loaded.rows = target.reread saved.rows :=
      rows_loadBytes_encode_of_descending scored sameAsSaved countable sorted
        fits
    constructor
    · rw [read, reread_of_scored scored sameAsSaved]
    · intro noNul
      exact encode_of_reread noNul read

/-- Two players are saved, one of them with a disambiguator, and loaded into a
smaller board. -/
theorem loadBytes_encode_of_two :
    let calls : List Call :=
      [.findOrCreate "Sarge" (some "STEAM_0:1"), .findOrCreate "Médic" none,
        .update { number := 1 } (StatBlock.zero.award 5)]
    let saved := (Board.empty 10 PointTable.blank).run calls
    let target := Board.empty 2 PointTable.blank
    saved.rows.map Row.score = [5, 0] ∧
      (target.loadBytes saved.encode).1 =
        .ok (target.loadBytes saved.encode).2.rows.length ∧
      (target.loadBytes saved.encode).2.encode = saved.encode := by
  intro calls
  have scores : ((Board.empty 10 PointTable.blank).run calls).rows.map
      Row.score = [5, 0] := by decide
  have length : ((Board.empty 10 PointTable.blank).run calls).rows.length =
      2 := by decide
  have sorted : Descending
      ((Board.empty 10 PointTable.blank).run calls).rows := by
    rw [descending_iff_scores, scores]
    decide
  have noNul : ∀ row ∈ ((Board.empty 10 PointTable.blank).run calls).rows,
      '\x00' ∉ row.name.toList ∧ '\x00' ∉ row.unique.toList := by decide
  obtain ⟨succeeds, _, same⟩ := loadBytes_encode 10 PointTable.blank calls
    (Board.empty 2 PointTable.blank) (by rw [length]; decide)
  have image := (same sorted (Nat.le_of_eq length) rfl).2 noNul
  exact ⟨scores, succeeds, image⟩

end Board

end Fragboard.Rank
