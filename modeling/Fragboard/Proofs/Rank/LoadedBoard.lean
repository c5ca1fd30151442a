import Fragboard.Proofs.Rank.SavedBoard
import Mathlib.Data.List.Forall2
import Mathlib.Data.List.Nodup

/-!
# The board that a file makes

A load sorts records twice: by the position that was stored with them, then by
the score that the loading board gives them.  Both sorts are stable, so together
they put the records into one order, `CanonicalOrder`, whatever the positions
and counters of a file may be.  A file that is rejected leaves nothing behind.
-/

namespace Fragboard.Rank

open Storage (Bytes FilePath FileTree)

namespace RankRecord

/-- The first record belongs above the second, or on one level with it: it has a
higher score, or the same score and no later position. -/
def Precedes (points : PointTable) (first second : RankRecord) : Prop :=
  points.score second.stats < points.score first.stats ∨
    (points.score second.stats = points.score first.stats ∧
      first.position ≤ second.position)

def standsAt (points : PointTable) (score : Int32) (position : UInt32)
    (record : RankRecord) : Bool :=
  points.score record.stats == score && record.position == position

/-- The order of the first sort. -/
def earlier (first second : RankRecord) : Bool :=
  first.position ≤ second.position

/-- The order of the second sort. -/
def outscores (points : PointTable) (first second : RankRecord) : Bool :=
  points.score second.stats ≤ points.score first.stats

theorem earlier_trans (first second third : RankRecord)
    (upper : earlier first second) (lower : earlier second third) :
    earlier first third := by
  simp only [earlier, decide_eq_true_eq] at *
  exact UInt32.le_trans upper lower

theorem earlier_total (first second : RankRecord) :
    earlier first second || earlier second first := by
  simp only [earlier, Bool.or_eq_true, decide_eq_true_eq]
  exact UInt32.le_total _ _

theorem outscores_trans (points : PointTable) (first second third : RankRecord)
    (upper : outscores points first second)
    (lower : outscores points second third) : outscores points first third := by
  simp only [outscores, decide_eq_true_eq] at *
  exact Int32.le_trans lower upper

theorem outscores_total (points : PointTable) (first second : RankRecord) :
    outscores points first second || outscores points second first := by
  simp only [outscores, Bool.or_eq_true, decide_eq_true_eq]
  exact Int32.le_total _ _

end RankRecord

open RankRecord (Precedes standsAt earlier outscores)

/-- The records by falling score, those of one score by rising position, and
those of one position too as they stand in the file. -/
structure CanonicalOrder (points : PointTable)
    (records ordered : List RankRecord) : Prop where
  perm : ordered.Perm records
  sorted : ordered.Pairwise (Precedes points)
  stable : ∀ score position,
    ordered.filter (standsAt points score position) =
      records.filter (standsAt points score position)

section TwoSorts

variable (points : PointTable) (records : List RankRecord)

/-- The second sort leaves records of one score as they stood. -/
theorem filter_score_mergeSort (score : Int32) :
    (records.mergeSort (outscores points)).filter
        (fun record => points.score record.stats == score) =
      records.filter fun record => points.score record.stats == score := by
  apply filter_mergeSort (RankRecord.outscores_trans points)
    (RankRecord.outscores_total points)
  intro first second firstHas secondHas
  rw [beq_iff_eq] at firstHas secondHas
  simp [outscores, firstHas, secondHas]

/-- The first sort leaves records of one position as they stood. -/
theorem filter_position_mergeSort (position : UInt32) :
    (records.mergeSort earlier).filter (·.position == position) =
      records.filter (·.position == position) := by
  apply filter_mergeSort RankRecord.earlier_trans RankRecord.earlier_total
  intro first second firstHas secondHas
  rw [beq_iff_eq] at firstHas secondHas
  simp [earlier, firstHas, secondHas]

theorem filter_standsAt (score : Int32) (position : UInt32) :
    records.filter (standsAt points score position) =
      (records.filter fun record => points.score record.stats == score).filter
        (·.position == position) := by
  rw [List.filter_filter]
  apply List.filter_congr
  intro record _
  exact Bool.and_comm _ _

theorem filter_standsAt_swap (score : Int32) (position : UInt32) :
    records.filter (standsAt points score position) =
      (records.filter (·.position == position)).filter fun record =>
        points.score record.stats == score := by
  rw [List.filter_filter]
  rfl

theorem canonicalOrder_mergeSort :
    CanonicalOrder points records
      ((records.mergeSort earlier).mergeSort (outscores points)) := by
  let placed := records.mergeSort earlier
  have byPosition : placed.Pairwise fun first second => earlier first second :=
    List.pairwise_mergeSort RankRecord.earlier_trans RankRecord.earlier_total
      records
  have byScore : (placed.mergeSort (outscores points)).Pairwise
      fun first second => outscores points first second :=
    List.pairwise_mergeSort (RankRecord.outscores_trans points)
      (RankRecord.outscores_total points) placed
  refine ⟨(List.mergeSort_perm _ _).trans (List.mergeSort_perm _ _), ?_, ?_⟩
  · apply List.pairwise_iff_forall_sublist.mpr
    intro first second sublist
    have notLower := List.pairwise_iff_forall_sublist.mp byScore sublist
    simp only [outscores, decide_eq_true_eq] at notLower
    rcases Int32.lt_or_eq_of_le notLower with higher | level
    · exact .inl higher
    · have together := sublist.filter fun record =>
        points.score record.stats == points.score first.stats
      rw [filter_score_mergeSort] at together
      simp only [List.filter_cons, level, beq_self_eq_true, if_true,
        List.filter_nil] at together
      have before := List.pairwise_iff_forall_sublist.mp byPosition
        (together.trans List.filter_sublist)
      exact .inr ⟨level, of_decide_eq_true before⟩
  · intro score position
    rw [filter_standsAt, filter_score_mergeSort, ← filter_standsAt,
      filter_standsAt_swap, filter_position_mergeSort, ← filter_standsAt_swap]

theorem mergeSort_position :
    (records.mergeSort fun first second => first.position ≤ second.position) =
      records.mergeSort earlier :=
  rfl

/-- Records with positions of their own are put into one order by the first
sort, however they stand in the file. -/
theorem mergeSort_earlier_of_perm {records reordered : List RankRecord}
    (permuted : reordered.Perm records)
    (distinct : (records.map RankRecord.position).Nodup) :
    reordered.mergeSort earlier = records.mergeSort earlier := by
  have sorted (list : List RankRecord) :
      (list.mergeSort earlier).Pairwise
        fun first second => earlier first second :=
    List.pairwise_mergeSort RankRecord.earlier_trans RankRecord.earlier_total
      list
  apply List.Perm.eq_of_pairwise _ (sorted reordered) (sorted records)
  · exact (List.mergeSort_perm _ _).trans
      (permuted.trans (List.mergeSort_perm _ _).symm)
  · intro first second firstMember secondMember upper lower
    have here := permuted.mem_iff.mp (List.mem_mergeSort.mp firstMember)
    have there := List.mem_mergeSort.mp secondMember
    apply List.inj_on_of_nodup_map distinct here there
    exact UInt32.le_antisymm (of_decide_eq_true upper)
      (of_decide_eq_true lower)

end TwoSorts

namespace Board

/-- The row is what the board makes of the record, under one of so many new
identities. -/
def MakesRow (board : Board) (total : Nat) (row : Row)
    (record : RankRecord) : Prop :=
  ∃ count < total, row = board.rowOf count record

/-- The records with the numbers of their identities, sorted by score. -/
def scoredRecords (board : Board) (records : List RankRecord) :
    List (RankRecord × Nat) :=
  (records.mergeSort earlier).zipIdx.mergeSort fun first second =>
    outscores board.points first.1 second.1

theorem rows_ofRecords_eq_map (board : Board) (records : List RankRecord) :
    (board.ofRecords records).rows =
      ((board.scoredRecords records).map fun numbered =>
        board.rowOf numbered.2 numbered.1).take board.capacity := by
  rw [rows_ofRecords, mergeSort_position, List.mapIdx_eq_zipIdx_map,
    scoredRecords, List.map_mergeSort]
  intro first _ second _
  rfl

theorem map_fst_scoredRecords (board : Board) (records : List RankRecord) :
    (board.scoredRecords records).map Prod.fst =
      (records.mergeSort earlier).mergeSort (outscores board.points) := by
  rw [scoredRecords, List.map_mergeSort (s := outscores board.points),
    List.zipIdx_map_fst]
  intro first _ second _
  rfl

/-- The board lists the records in the canonical order, as far as they fit. -/
theorem exists_canonicalOrder (board : Board) (records : List RankRecord) :
    ∃ ordered, CanonicalOrder board.points records ordered ∧
      List.Forall₂ (board.MakesRow records.length)
        (board.ofRecords records).rows (ordered.take board.capacity) := by
  refine ⟨_, canonicalOrder_mergeSort board.points records, ?_⟩
  rw [rows_ofRecords_eq_map, ← map_fst_scoredRecords, ← List.map_take,
    ← List.map_take, List.forall₂_map_left_iff, List.forall₂_map_right_iff]
  apply List.forall₂_same.mpr
  rintro ⟨record, count⟩ member
  have numbered := List.mem_mergeSort.mp (List.mem_of_mem_take member)
  have inside := List.snd_lt_of_mem_zipIdx numbered
  rw [List.length_mergeSort, Nat.add_zero] at inside
  exact ⟨count, inside, rfl⟩

theorem ofRecords_of_perm (board : Board) {records reordered : List RankRecord}
    (permuted : reordered.Perm records)
    (distinct : (records.map RankRecord.position).Nodup) :
    board.ofRecords reordered = board.ofRecords records := by
  simp only [ofRecords, mergeSort_position,
    mergeSort_earlier_of_perm permuted distinct]

/-- Whatever stood on a board, a load that fails returns the error and leaves no
row, also if the file cannot be read; one that can is read as its bytes.  A load
that succeeds counts the rows that it leaves.  These are made of the records
under new identities, by falling score, then by rising position, then as in the
file, and cut to the capacity.  If no two positions are the same, the order in
the file makes no difference. -/
theorem loads_canonical_board (board : Board) (bytes : Bytes) :
    (∀ failure, Image.decode bytes = .error failure →
      (board.loadBytes bytes).1 = .error failure ∧
      (board.loadBytes bytes).2.rows = []) ∧
    (∀ tree path,
      (FileTree.read tree path = .ok bytes →
        board.load tree path = board.loadBytes bytes) ∧
      ∀ fault, FileTree.read tree path = .error fault →
        (board.load tree path).1 = .error (.ofFault path fault) ∧
        (board.load tree path).2.rows = []) ∧
    ∀ records, Image.decode bytes = .ok records →
      let loaded := (board.loadBytes bytes).2
      (board.loadBytes bytes).1 = .ok loaded.rows.length ∧
      (∃ ordered, CanonicalOrder board.points records ordered ∧
        List.Forall₂ (board.MakesRow records.length) loaded.rows
          (ordered.take board.capacity)) ∧
      ∀ other reordered, Image.decode other = .ok reordered →
        reordered.Perm records → (records.map RankRecord.position).Nodup →
        board.loadBytes other = board.loadBytes bytes := by
  refine ⟨?_, ?_, ?_⟩
  · intro failure rejected
    rw [loadBytes, rejected]
    exact ⟨rfl, rfl⟩
  · intro tree path
    constructor
    · intro content
      rw [load, content, loadContent]
    · intro fault unread
      rw [load, unread]
      exact ⟨rfl, rfl⟩
  · intro records decoded loaded
    have read : board.loadBytes bytes =
        (.ok (board.ofRecords records).rows.length,
          board.ofRecords records) := by
      rw [loadBytes, decoded]
    have rows : loaded = board.ofRecords records := congrArg Prod.snd read
    refine ⟨?_, ?_, ?_⟩
    · rw [rows, read]
    · rw [rows]
      exact board.exists_canonicalOrder records
    · intro other reordered decodedOther permuted distinct
      rw [read, loadBytes, decodedOther]
      simp only [board.ofRecords_of_perm permuted distinct]

/-- Three records, two of them on one level, are loaded over an old row in two
orders.  A file that is cut off or missing takes the old row away too. -/
theorem reordered_file_loads_alike :
    let record (name : String) (score : Int32) (position : UInt32) :
        RankRecord :=
      { name := NameField.pack name
        unique := NameField.pack ""
        stats := StatBlock.zero.award score
        position := position }
    let records := [record "zoe" 5 2, record "ann" 5 1, record "bob" 7 9]
    let reordered := [record "bob" 7 9, record "zoe" 5 2, record "ann" 5 1]
    let board := (Board.empty 2 PointTable.blank).run
      [.findOrCreate "old" none]
    let missing : FilePath := { text := "missing.dat" }
    board.rows.length = 1 ∧
    (board.loadBytes []).2.rows = [] ∧
    (board.load FileTree.empty missing).2.rows = [] ∧
    (board.loadBytes (Image.encode records)).1 =
      .ok (board.loadBytes (Image.encode records)).2.rows.length ∧
    board.loadBytes (Image.encode reordered) =
      board.loadBytes (Image.encode records) := by
  intro record records reordered board missing
  have decoded : Image.decode (Image.encode records) = .ok records :=
    Image.decode_encode (by decide)
  have decodedOther : Image.decode (Image.encode reordered) = .ok reordered :=
    Image.decode_encode (by decide)
  obtain ⟨cut, files, _⟩ := loads_canonical_board board []
  obtain ⟨_, _, whole⟩ := loads_canonical_board board (Image.encode records)
  obtain ⟨count, _, alike⟩ := whole records decoded
  refine ⟨by decide, (cut _ rfl).2, ?_, count, ?_⟩
  · exact ((files FileTree.empty missing).2 .noEntry (by decide)).2
  · apply alike _ reordered decodedOther
    · exact (List.perm_append_singleton _ _).symm
    · decide

end Board

end Fragboard.Rank
