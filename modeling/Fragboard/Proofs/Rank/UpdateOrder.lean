import Fragboard.Proofs.Rank.DistinctRows
import Fragboard.Proofs.Rank.ReusedIdentities
import Fragboard.Proofs.SaturatingSums

/-!
# Updates in any order

An update changes one row and moves it, so as long as no two rows share an
identity, the rows after some updates are up to their order the rows before them,
each with its own updates merged in.  If no counter stops at a bound, the sums in
a row do not depend on the order of its updates.  The board is ordered in the end
as it was at the start, so its order is settled but for rows of the same score.
-/

namespace Fragboard.Rank

namespace Row

/-- The row after some updates of its own. -/
def gains (row : Row) (points : PointTable) (deltas : List StatBlock) : Row :=
  deltas.foldl (fun row delta => row.gain points delta) row

theorem gains_eq (row : Row) (points : PointTable) (deltas : List StatBlock) :
    row.gains points deltas =
      { row with
        stats := row.stats.mergeAll deltas
        score :=
          if deltas = [] then row.score
          else points.score (row.stats.mergeAll deltas) } := by
  induction deltas generalizing row with
  | nil => rfl
  | cons delta rest ih =>
      rw [gains, List.foldl_cons, ← gains, ih]
      cases rest with
      | nil => simp [gain, StatBlock.mergeAll]
      | cons next later => simp [gain, StatBlock.mergeAll]

/-- The score is that of the counters in the end, so only these matter. -/
theorem gains_perm {row : Row} {points : PointTable}
    {first second : List StatBlock} (permuted : first.Perm second)
    (same : row.stats.mergeAll first = row.stats.mergeAll second) :
    row.gains points first = row.gains points second := by
  have empty : first = [] ↔ second = [] := by
    rw [← List.length_eq_zero_iff, permuted.length_eq,
      List.length_eq_zero_iff]
  simp only [gains_eq, same, empty]

end Row

/-- Rows with a certain identity, of which there is at most one, are the same in
all arrangements. -/
theorem find?_id_perm {first second : List Row} (permuted : first.Perm second)
    {id : RankId} (single : (first.map Row.id).count id ≤ 1) :
    first.find? (·.id == id) = second.find? (·.id == id) := by
  have named := permuted.filter (·.id == id)
  have few : (first.filter (·.id == id)).length ≤ 1 := by
    rw [← List.countP_eq_length_filter]
    rwa [List.count_eq_countP, List.countP_map] at single
  rw [← List.head?_filter, ← List.head?_filter]
  generalize first.filter (·.id == id) = left at named few
  match left, few with
  | [], _ => rw [named.nil_eq]
  | [row], _ => rw [List.singleton_perm.mp named]

namespace Board

/-- No two rows have the identity. -/
def Unambiguous (board : Board) (id : RankId) : Prop :=
  (board.rows.map Row.id).count id ≤ 1

instance (board : Board) : DecidablePred board.Unambiguous := fun id =>
  inferInstanceAs (Decidable ((board.rows.map Row.id).count id ≤ 1))

/-- The row after an update of one identity. -/
def updatedRow (points : PointTable) (id : RankId) (delta : StatBlock)
    (row : Row) : Row :=
  if row.id = id then row.gain points delta else row

theorem id_updatedRow (points : PointTable) (id : RankId) (delta : StatBlock)
    (row : Row) : (updatedRow points id delta row).id = row.id := by
  unfold updatedRow
  split
  · exact row.id_gain points delta
  · rfl

theorem map_updatedRow_of_absent (points : PointTable) {id : RankId}
    (delta : StatBlock) {rows : List Row}
    (absent : ∀ row ∈ rows, row.id ≠ id) :
    rows.map (updatedRow points id delta) = rows :=
  calc
    rows.map (updatedRow points id delta) = rows.map (fun row => row) :=
      List.map_congr_left fun row member => if_neg (absent row member)
    _ = rows := List.map_id' rows

/-- The row in focus is the only one with its identity. -/
theorem absent_of_unambiguous {board : Board} {id : RankId} {cursor : Cursor}
    (found : Cursor.seek? id board.rows = some cursor)
    (unambiguous : board.Unambiguous id) :
    ∀ row ∈ board.others id, row.id ≠ id := by
  have ids := cursor.rows_perm.map Row.id
  rw [Cursor.seek?_rows found, Cursor.seek?_others found, ← others,
    List.map_cons, Cursor.seek?_row found] at ids
  rw [Unambiguous, ids.count_eq, List.count_cons_self] at unambiguous
  have none : id ∉ (board.others id).map Row.id :=
    List.count_eq_zero.mp (by omega)
  intro row member same
  exact none (List.mem_map.mpr ⟨row, member, same⟩)

theorem rows_update_perm {board : Board} {id : RankId}
    (fits : board.rows.length ≤ board.capacity)
    (unambiguous : board.Unambiguous id) (delta : StatBlock) :
    (board.update id delta).2.rows.Perm
      (board.rows.map (updatedRow board.points id delta)) := by
  cases found : Cursor.seek? id board.rows with
  | none =>
      have absent := Cursor.seek?_eq_none_iff.mp found
      rw [update_of_unknown delta found,
        map_updatedRow_of_absent board.points delta absent]
  | some cursor =>
      let settled := board.settledCursor delta cursor
      have absent := absent_of_unambiguous found unambiguous
      have before := cursor.rows_perm
      have after := settled.rows_perm
      rw [Cursor.seek?_rows found, Cursor.seek?_others found, ← others]
        at before
      rw [settledCursor_row, settledCursor_others delta found] at after
      have whole : settled.rows.take board.capacity = settled.rows := by
        apply List.take_of_length_le
        rw [after.length_eq, List.length_cons]
        rwa [before.length_eq, List.length_cons] at fits
      have updated := before.map (updatedRow board.points id delta)
      rw [List.map_cons, map_updatedRow_of_absent board.points delta absent,
        updatedRow, if_pos (Cursor.seek?_row found)] at updated
      rw [update_of_found delta found]
      exact (List.Perm.of_eq whole).trans (after.trans updated.symm)

theorem ids_update_perm {board : Board} {id : RankId}
    (fits : board.rows.length ≤ board.capacity)
    (unambiguous : board.Unambiguous id) (delta : StatBlock) :
    ((board.update id delta).2.rows.map Row.id).Perm
      (board.rows.map Row.id) := by
  have ids := (rows_update_perm fits unambiguous delta).map Row.id
  rw [List.map_map] at ids
  refine ids.trans (List.Perm.of_eq (List.map_congr_left ?_))
  intro row _
  exact id_updatedRow board.points id delta row

/-- A board that was ordered before an update is so after it. -/
theorem descending_update {board : Board} (sorted : Descending board.rows)
    (id : RankId) (delta : StatBlock) :
    Descending (board.update id delta).2.rows := by
  have others : Descending (board.others id) := sorted.sublist
    List.eraseP_sublist
  exact (descending_update_iff delta board id).mpr (others.take _)

structure Update where
  id : RankId
  delta : StatBlock

def updates (board : Board) (list : List Update) : Board :=
  list.foldl (fun board update => (board.update update.id update.delta).2) board

/-- What some updates bring to an identity. -/
def deltasOf (id : RankId) (list : List Update) : List StatBlock :=
  list.filterMap fun update =>
    if update.id = id then some update.delta else none

/-- There is a place for every row, and no update is for two of them. -/
structure Takes (board : Board) (list : List Update) : Prop where
  fits : board.rows.length ≤ board.capacity
  unambiguous : ∀ update ∈ list, board.Unambiguous update.id

instance (board : Board) (list : List Update) : Decidable (board.Takes list) :=
  decidable_of_iff
    (board.rows.length ≤ board.capacity ∧
      ∀ update ∈ list, board.Unambiguous update.id)
    ⟨fun both => ⟨both.1, both.2⟩,
      fun takes => ⟨takes.fits, takes.unambiguous⟩⟩

theorem Takes.perm {board : Board} {first second : List Update}
    (takes : board.Takes first) (permuted : first.Perm second) :
    board.Takes second :=
  ⟨takes.fits, fun update member =>
    takes.unambiguous update (permuted.mem_iff.mpr member)⟩

/-- As long as identities last, no update is for two rows. -/
theorem Identified.takes {board : Board} {count : Nat}
    (identified : board.Identified count)
    (fits : board.rows.length ≤ board.capacity) (list : List Update) :
    board.Takes list :=
  ⟨fits, fun update _ =>
    List.nodup_iff_count_le_one.mp identified.distinct update.id⟩

section Cons

variable {board : Board} {update : Update} {rest : List Update}
  (takes : board.Takes (update :: rest))

include takes

theorem Takes.rows_perm :
    (board.update update.id update.delta).2.rows.Perm
      (board.rows.map
        (updatedRow board.points update.id update.delta)) :=
  rows_update_perm takes.fits
    (takes.unambiguous update List.mem_cons_self) update.delta

theorem Takes.tail : (board.update update.id update.delta).2.Takes rest := by
  have settings := board.sameSettings_update update.id update.delta
  have here := takes.unambiguous update List.mem_cons_self
  have ids := ids_update_perm takes.fits here update.delta
  constructor
  · rw [settings.capacity, takes.rows_perm.length_eq, List.length_map]
    exact takes.fits
  · intro later member
    rw [Unambiguous, ids.count_eq]
    exact takes.unambiguous later (List.mem_cons_of_mem update member)

end Cons

theorem gains_updatedRow (points : PointTable) (update : Update)
    (rest : List Update) (row : Row) :
    (updatedRow points update.id update.delta row).gains points
        (deltasOf row.id rest) =
      row.gains points (deltasOf row.id (update :: rest)) := by
  unfold updatedRow deltasOf
  by_cases named : row.id = update.id
  · rw [if_pos named, List.filterMap_cons, if_pos named.symm]
    rfl
  · rw [if_neg named, List.filterMap_cons, if_neg (Ne.symm named)]

/-- Up to their order, the rows are the old ones with their own updates. -/
theorem rows_updates_perm {board : Board} {list : List Update}
    (takes : board.Takes list) :
    (board.updates list).rows.Perm
      (board.rows.map fun row =>
        row.gains board.points (deltasOf row.id list)) := by
  induction list generalizing board with
  | nil =>
      have same : board.rows.map (fun row => row.gains board.points []) =
          board.rows := List.map_id' board.rows
      exact List.Perm.of_eq same.symm
  | cons update rest ih =>
      have settings := board.sameSettings_update update.id update.delta
      have later := ih takes.tail
      rw [settings.points] at later
      refine later.trans ((takes.rows_perm.map _).trans (List.Perm.of_eq ?_))
      rw [List.map_map]
      apply List.map_congr_left
      intro row _
      rw [Function.comp_apply, id_updatedRow, gains_updatedRow]

theorem ids_updates_perm {board : Board} {list : List Update}
    (takes : board.Takes list) :
    ((board.updates list).rows.map Row.id).Perm (board.rows.map Row.id) := by
  have ids := (rows_updates_perm takes).map Row.id
  rw [List.map_map] at ids
  refine ids.trans (List.Perm.of_eq (List.map_congr_left ?_))
  intro row _
  simp only [Function.comp_apply, Row.gains_eq]

theorem descending_updates {board : Board} (sorted : Descending board.rows)
    (list : List Update) : Descending (board.updates list).rows := by
  induction list generalizing board with
  | nil => exact sorted
  | cons update rest ih =>
      exact ih (descending_update sorted update.id update.delta)

/-- No counter of a row stops at a bound in the updates. -/
def UpdatesExactly (board : Board) : List Update → Prop
  | [] => True
  | update :: rest =>
    (∀ row ∈ board.get? update.id, row.stats.MergesExactly update.delta) ∧
    (board.update update.id update.delta).2.UpdatesExactly rest

instance decidableUpdatesExactly :
    (board : Board) → DecidablePred board.UpdatesExactly
  | _, [] => .isTrue trivial
  | board, update :: rest =>
    have := decidableUpdatesExactly
      (board.update update.id update.delta).2 rest
    inferInstanceAs (Decidable (
      (∀ row ∈ board.get? update.id, row.stats.MergesExactly update.delta) ∧
      (board.update update.id update.delta).2.UpdatesExactly rest))

theorem get?_of_unambiguous {board : Board} {row : Row}
    (member : row ∈ board.rows) (unambiguous : board.Unambiguous row.id) :
    board.get? row.id = some row := by
  obtain ⟨above, below, rows⟩ := List.append_of_mem member
  have first : board.rows.Perm (row :: (above ++ below)) := by
    rw [rows]
    exact List.perm_middle
  rw [get?, find?_id_perm first unambiguous, List.find?_cons_of_pos]
  exact beq_self_eq_true row.id

theorem sumsExactly_of_updatesExactly {board : Board} {list : List Update}
    (takes : board.Takes list) (exact : board.UpdatesExactly list) {row : Row}
    (member : row ∈ board.rows) (counter : Counter) :
    SumsExactly (row.stats.get counter)
      ((deltasOf row.id list).map (·.get counter)) := by
  induction list generalizing board row with
  | nil => exact trivial
  | cons update rest ih =>
      obtain ⟨here, later⟩ := exact
      have after : updatedRow board.points update.id update.delta row ∈
          (board.update update.id update.delta).2.rows :=
        takes.rows_perm.mem_iff.mpr (List.mem_map_of_mem member)
      have sums := ih takes.tail later after
      rw [id_updatedRow] at sums
      by_cases named : row.id = update.id
      · have unambiguous := takes.unambiguous update List.mem_cons_self
        rw [← named] at unambiguous
        have merges := here row (named ▸ get?_of_unambiguous member unambiguous)
        rw [updatedRow, if_pos named, Row.gain, StatBlock.get_merge] at sums
        rw [deltasOf, List.filterMap_cons, if_pos named.symm]
        exact ⟨merges counter, sums⟩
      · rw [updatedRow, if_neg named] at sums
        rw [deltasOf, List.filterMap_cons, if_neg (Ne.symm named)]
        exact sums

section Order

variable {board : Board} {first second : List Update}
  (takes : board.Takes first) (permuted : first.Perm second)
  (firstExact : board.UpdatesExactly first)
  (secondExact : board.UpdatesExactly second)

include takes permuted firstExact secondExact

theorem gains_deltasOf_perm {row : Row} (member : row ∈ board.rows) :
    row.gains board.points (deltasOf row.id first) =
      row.gains board.points (deltasOf row.id second) := by
  have deltas : (deltasOf row.id first).Perm (deltasOf row.id second) :=
    permuted.filterMap _
  apply Row.gains_perm deltas
  apply StatBlock.mergeAll_perm deltas
  intro counter
  exact .inr ⟨sumsExactly_of_updatesExactly takes firstExact member counter,
    sumsExactly_of_updatesExactly (takes.perm permuted) secondExact member
      counter⟩

theorem rows_updates_of_perm :
    (board.updates first).rows.Perm (board.updates second).rows := by
  have left := rows_updates_perm takes
  have right := rows_updates_perm (takes.perm permuted)
  refine left.trans ((List.Perm.of_eq ?_).trans right.symm)
  apply List.map_congr_left
  intro row member
  exact gains_deltasOf_perm takes permuted firstExact secondExact member

end Order

/-- Updates in another order leave every row with the same counters and the same
score, and every position with the same score; only rows of the same score may
stand in another order. -/
theorem updates_in_any_order {board : Board} {first second : List Update}
    (sorted : Descending board.rows) (takes : board.Takes first)
    (permuted : first.Perm second)
    (firstExact : board.UpdatesExactly first)
    (secondExact : board.UpdatesExactly second) :
    let left := board.updates first
    let right := board.updates second
    left.rows.Perm right.rows ∧
    (∀ id, board.Unambiguous id → left.get? id = right.get? id) ∧
    left.rows.map Row.score = right.rows.map Row.score ∧
    ∀ upper lower, [upper, lower].Sublist left.rows →
      [lower, upper].Sublist right.rows → upper.score = lower.score := by
  intro left right
  have rows : left.rows.Perm right.rows :=
    rows_updates_of_perm takes permuted firstExact secondExact
  have leftSorted : Descending left.rows := descending_updates sorted first
  have rightSorted : Descending right.rows := descending_updates sorted second
  refine ⟨rows, ?_, ?_, ?_⟩
  · intro id unambiguous
    apply find?_id_perm rows
    rwa [(ids_updates_perm takes).count_eq]
  · apply (rows.map Row.score).eq_of_pairwise _
      (descending_iff_scores.mp leftSorted)
      (descending_iff_scores.mp rightSorted)
    intro higher lower _ _ above below
    exact Int32.le_antisymm below above
  · intro upper lower onLeft onRight
    have above := List.pairwise_iff_forall_sublist.mp leftSorted onLeft
    have below := List.pairwise_iff_forall_sublist.mp rightSorted onRight
    exact Int32.le_antisymm below above

/-- In one order ann falls below the row of cat before she rises to its score,
in the other one she stops above it.  Nobody has the last identity. -/
theorem rows_of_equal_score_by_order :
    let ann : RankId := { number := 0 }
    let bob : RankId := { number := 1 }
    let calls : List Call :=
      [.findOrCreate "ann" none, .update ann (StatBlock.zero.award 5),
        .findOrCreate "bob" none, .update bob (StatBlock.zero.award 3),
        .findOrCreate "cat" none]
    let board := (Board.empty 3 PointTable.blank).run calls
    let list : List Update :=
      [⟨ann, StatBlock.zero.award (-6)⟩, ⟨bob, StatBlock.zero.recordShot⟩,
        ⟨ann, StatBlock.zero.award 1⟩, ⟨{ number := 7 }, StatBlock.zero⟩]
    let left := board.updates list
    let right := board.updates list.reverse
    Descending board.rows ∧ board.Takes list ∧
    board.UpdatesExactly list ∧ board.UpdatesExactly list.reverse ∧
    left.get? ann = right.get? ann ∧ left.get? bob = right.get? bob ∧
    left.rows.map Row.score = right.rows.map Row.score ∧
    left.rows.map Row.name = ["bob", "cat", "ann"] ∧
    right.rows.map Row.name = ["bob", "ann", "cat"] := by
  intro ann bob calls board list left right
  have sorted : Descending board.rows :=
    descending_iff_scores.mpr (by decide +kernel)
  have takes : board.Takes list := by decide +kernel
  have firstExact : board.UpdatesExactly list := by decide +kernel
  have secondExact : board.UpdatesExactly list.reverse := by decide +kernel
  obtain ⟨_, found, scores, _⟩ := updates_in_any_order sorted takes
    (List.reverse_perm list).symm firstExact secondExact
  exact ⟨sorted, takes, firstExact, secondExact,
    found ann (by decide +kernel), found bob (by decide +kernel), scores,
    by decide +kernel, by decide +kernel⟩

/-- Dog and cat, who has been made when all identities were used up, share one.
Both updates go to the first of their rows, and which one that is depends on the
update before. -/
theorem rows_of_shared_identity_by_order :
    let opening : List Call :=
      .findOrCreate "ann" none :: .findOrCreate "dog" none :: turns (2 ^ 31)
    let board := ((Board.empty 2 PointTable.blank).run opening).perform
      (.update { number := 0 } (StatBlock.zero.award (-5)))
    let shared : RankId := { number := 1 }
    let list : List Update :=
      [⟨shared, StatBlock.zero.award (-5)⟩, ⟨shared, StatBlock.zero.award 3⟩]
    Descending board.rows ∧ board.rows.length ≤ board.capacity ∧
    (∃ row ∈ board.rows, row.id = shared) ∧
    board.UpdatesExactly list ∧ board.UpdatesExactly list.reverse ∧
    (board.updates list).rows.map Row.score = [3, -5] ∧
    (board.updates list.reverse).rows.map Row.score = [0, -2] := by
  intro opening board shared list
  have whole : (Board.empty 2 PointTable.blank).run opening =
      overfull PointTable.blank
        [freshRow PointTable.blank "ann" 0, freshRow PointTable.blank "dog" 1]
        "cat" 1 :=
    run_turns_after_dog PointTable.blank
  simp only [board, whole]
  exact ⟨descending_iff_scores.mpr (by decide +kernel), by decide +kernel,
    by decide +kernel, by decide +kernel, by decide +kernel, by decide +kernel,
    by decide +kernel⟩

end Board

end Fragboard.Rank
