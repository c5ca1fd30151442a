import Fragboard.Proofs.Rank.UpdateOrder

/-!
# Where an updated row goes

On an ordered board an update moves its row past the rows that its new score has
passed, and no further.  A row that rises stops behind the rows whose score it
reaches, a row that falls in front of them, and a row whose score stays does not
move.  What is beyond the capacity is cut off after the move.  The position that
is reported is found again under the identity, unless a second row has it.
-/

namespace Fragboard.Rank

theorem Cursor.bounds_of_descending {cursor : Cursor}
    (sorted : Descending cursor.rows) :
    (∀ other ∈ cursor.above, cursor.row.score ≤ other.score) ∧
    ∀ other ∈ cursor.below, other.score ≤ cursor.row.score := by
  obtain ⟨_, lower, across⟩ := List.pairwise_append.mp sorted
  refine ⟨fun other member => ?_, (List.pairwise_cons.mp lower).1⟩
  exact across other (List.mem_reverse.mpr member) cursor.row
    List.mem_cons_self

namespace Board

section Moves

variable {board : Board} {cursor : Cursor} {delta : StatBlock}
  (sorted : Descending cursor.rows)

include sorted

/-- A row that rises leaves only lower rows below. -/
theorem settledCursor_of_rise
    (rise : cursor.row.score <
      (cursor.row.gain board.points delta).score) :
    ∀ other ∈ (board.settledCursor delta cursor).below,
      other.score < (cursor.row.gain board.points delta).score := by
  apply Cursor.settle_below
  intro other member
  rw [Cursor.mapRow_below] at member
  rw [Cursor.mapRow_row]
  have bound := (Cursor.bounds_of_descending sorted).2 other member
  exact Int32.lt_of_le_of_lt bound rise

/-- A row that falls leaves only higher rows above. -/
theorem settledCursor_of_fall
    (fall : (cursor.row.gain board.points delta).score <
      cursor.row.score) :
    ∀ other ∈ (board.settledCursor delta cursor).above,
      (cursor.row.gain board.points delta).score < other.score := by
  apply Cursor.settle_above
  intro other member
  rw [Cursor.mapRow_above] at member
  rw [Cursor.mapRow_row]
  have bound := (Cursor.bounds_of_descending sorted).1 other member
  exact Int32.lt_of_lt_of_le fall bound

theorem settledCursor_of_stay
    (stay : (cursor.row.gain board.points delta).score =
      cursor.row.score) :
    board.settledCursor delta cursor =
      cursor.mapRow (·.gain board.points delta) := by
  obtain ⟨above, below⟩ := Cursor.bounds_of_descending sorted
  apply Cursor.Settled.settle_eq
  constructor
  · intro neighbour first
    rw [Cursor.mapRow_above] at first
    rw [Cursor.mapRow_row, stay]
    exact above neighbour (List.mem_of_mem_head? first)
  · intro neighbour first
    rw [Cursor.mapRow_below] at first
    rw [Cursor.mapRow_row, stay]
    exact below neighbour (List.mem_of_mem_head? first)

end Moves

/-- The reported position is where the identity stands afterwards. -/
theorem update_position_iff {board : Board} {id : RankId}
    (unambiguous : board.Unambiguous id) (delta : StatBlock)
    (position : Nat) :
    (board.update id delta).1 = some position ↔
      (board.update id delta).2.positionOf? id = some position := by
  cases found : Cursor.seek? id board.rows with
  | none =>
      have absent := Cursor.seek?_eq_none_iff.mp found
      rw [update_of_unknown delta found, positionOf?_eq_none_iff.mpr absent]
  | some cursor =>
      let settled := board.settledCursor delta cursor
      have absent := absent_of_unambiguous found unambiguous
      rw [← settledCursor_others delta found] at absent
      have named : settled.row.id = id := by
        rw [settledCursor_row, Row.id_gain, Cursor.seek?_row found]
      have above : ∀ other ∈ settled.above.reverse, other.id ≠ id :=
        fun other member => absent other (List.mem_append_left _ member)
      rw [update_of_found delta found]
      by_cases kept : settled.above.length < board.capacity
      · obtain ⟨left, capacity⟩ : ∃ left,
            board.capacity = settled.above.length + (left + 1) :=
          ⟨board.capacity - settled.above.length - 1, by omega⟩
        let after : Board :=
          { board with rows := settled.rows.take board.capacity }
        have rows : after.rows =
            settled.above.reverse ++ settled.row :: settled.below.take left := by
          simp only [after, capacity]
          simp [Cursor.rows, List.take_append, List.take_of_length_le]
        have placed := positionOf?_of_first rows (by rwa [named])
        rw [named, List.length_reverse] at placed
        rw [if_pos kept, placed]
      · have gone : ∀ row ∈ settled.rows.take board.capacity, row.id ≠ id := by
          rw [Cursor.take_rows_of_le (Nat.le_of_not_lt kept)]
          exact fun row member => absent row (List.mem_of_mem_take member)
        rw [if_neg kept, positionOf?_eq_none_iff.mpr gone]

/-- On an ordered board the row found is taken out of the others and put back in
between them. -/
theorem exists_place {board : Board} (sorted : Descending board.rows)
    {id : RankId} {cursor : Cursor}
    (found : Cursor.seek? id board.rows = some cursor) (delta : StatBlock) :
    let updated := cursor.row.gain board.points delta
    ∃ higher lower, higher ++ lower = cursor.others ∧
      Descending (higher ++ updated :: lower) ∧
      (cursor.row.score < updated.score →
        ∀ other ∈ lower, other.score < updated.score) ∧
      (updated.score < cursor.row.score →
        ∀ other ∈ higher, updated.score < other.score) ∧
      (updated.score = cursor.row.score →
        higher = cursor.above.reverse ∧ lower = cursor.below) ∧
      board.update id delta =
        (if higher.length < board.capacity then some (higher.length + 1)
          else none,
        { board with
          rows := (higher ++ updated :: lower).take board.capacity }) := by
  intro updated
  let settled := board.settledCursor delta cursor
  have listed := Cursor.seek?_rows found
  have ordered : Descending cursor.rows := listed ▸ sorted
  have row : settled.row = updated := settledCursor_row delta
  have others : settled.others = cursor.others := by
    rw [settledCursor_others delta found, Cursor.seek?_others found,
      Board.others]
  have moved : settled.rows =
      settled.above.reverse ++ updated :: settled.below := by
    rw [← row]
    rfl
  have whole : Descending settled.rows := by
    have settles : settled.Settled := Cursor.settle_settled _
    rw [settles.descending_iff, others]
    exact ordered.sublist
      ((List.Sublist.refl _).append (List.sublist_cons_self _ _))
  refine ⟨settled.above.reverse, settled.below, others, moved ▸ whole,
    settledCursor_of_rise ordered, ?_, ?_, ?_⟩
  · intro fall other member
    exact settledCursor_of_fall ordered fall other
      (List.mem_reverse.mp member)
  · intro stay
    have same : settled = cursor.mapRow (·.gain board.points delta) :=
      settledCursor_of_stay ordered stay
    rw [same, Cursor.mapRow_above, Cursor.mapRow_below]
    exact ⟨rfl, rfl⟩
  · rw [update_of_found delta found, ← moved, List.length_reverse]

/-- An update of an ordered board merges the counters into its row, scores it
anew and puts it where the score belongs: behind all rows of that score if the
row has risen, in front of them if it has fallen, and where it was if its score
is the same.  The other rows stay as they are and in order, and then exactly the
rows beyond the capacity are cut off.  The reported position is the one at which
the row is found afterwards, and an unknown identity changes nothing. -/
theorem update_places_row {board : Board} (sorted : Descending board.rows)
    (id : RankId) (delta : StatBlock) :
    let result := board.update id delta
    ((∀ row ∈ board.rows, row.id ≠ id) → result = (none, board)) ∧
    (∀ above row below, board.rows = above ++ row :: below → row.id = id →
      (∀ other ∈ above, other.id ≠ id) →
      ∃ higher lower,
        let stats := row.stats.merge delta
        let updated : Row :=
          { row with stats := stats, score := board.points.score stats }
        higher ++ lower = above ++ below ∧
        Descending (higher ++ updated :: lower) ∧
        (row.score < updated.score →
          ∀ other ∈ lower, other.score < updated.score) ∧
        (updated.score < row.score →
          ∀ other ∈ higher, updated.score < other.score) ∧
        (updated.score = row.score → higher = above ∧ lower = below) ∧
        result =
          (if higher.length < board.capacity then some (higher.length + 1)
            else none,
          { board with
            rows := (higher ++ updated :: lower).take board.capacity })) ∧
    (board.Unambiguous id → ∀ position,
      result.1 = some position ↔ result.2.positionOf? id = some position) := by
  intro result
  refine ⟨?_, ?_, fun unambiguous => update_position_iff unambiguous delta⟩
  · intro absent
    exact update_of_unknown delta (Cursor.seek?_eq_none_iff.mpr absent)
  · rintro above row below rows rfl first
    have found : Cursor.seek? row.id board.rows =
        some ⟨above.reverse, row, below⟩ := by
      rw [rows]
      exact Cursor.seek?_of_first row below first
    have placed := exists_place sorted found delta
    simp only [Cursor.others, List.reverse_reverse] at placed
    exact placed

/-- Dan's fresh row rises to the score of bob and cat.  It goes behind both and
in front of eve, whose row is then one too many. -/
theorem row_placed_behind_equal_scores :
    let calls : List Call :=
      [.findOrCreate "ann" none,
        .update { number := 0 } (StatBlock.zero.award 5),
        .findOrCreate "bob" none,
        .update { number := 1 } (StatBlock.zero.award 3),
        .findOrCreate "cat" none,
        .update { number := 2 } (StatBlock.zero.award 3),
        .findOrCreate "eve" none,
        .update { number := 3 } (StatBlock.zero.award 2),
        .findOrCreate "dan" none]
    let board := (Board.empty 4 PointTable.blank).run calls
    let dan : RankId := { number := 4 }
    let row : Row :=
      { id := dan, name := "dan", unique := "", stats := StatBlock.zero,
        score := 0 }
    let delta := StatBlock.zero.award 3
    let after := (board.update dan delta).2
    Descending board.rows ∧ board.Unambiguous dan ∧
    board.rows = board.rows.take 4 ++ [row] ∧
    (∃ higher lower, higher ++ lower = board.rows.take 4 ∧
      (∀ other ∈ lower, other.score < 3) ∧
      after.rows = (higher ++ row.gain board.points delta :: lower).take 4) ∧
    after.rows.map Row.name = ["ann", "bob", "cat", "dan"] ∧
    after.positionOf? dan = some 4 := by
  intro calls board dan row delta after
  have sorted : Descending board.rows :=
    descending_iff_scores.mpr (by decide +kernel)
  have unambiguous : board.Unambiguous dan := by decide +kernel
  have rows : board.rows = board.rows.take 4 ++ [row] := by decide +kernel
  have first : ∀ other ∈ board.rows.take 4, other.id ≠ dan := by
    decide +kernel
  obtain ⟨_, places, positions⟩ := update_places_row sorted dan delta
  obtain ⟨higher, lower, others, _, risen, _, _, updated⟩ :=
    places (board.rows.take 4) row [] rows rfl first
  rw [List.append_nil] at others
  have lowerThan : ∀ other ∈ lower, other.score < 3 := by
    have score : board.points.score (row.stats.merge delta) = 3 := by
      decide +kernel
    rw [score] at risen
    exact risen (by decide)
  have moved : after.rows =
      (higher ++ row.gain board.points delta :: lower).take 4 :=
    congrArg (fun result => result.2.rows) updated
  refine ⟨sorted, unambiguous, rows, ⟨higher, lower, others, lowerThan, moved⟩,
    by decide +kernel, ?_⟩
  exact (positions unambiguous 4).mp (by decide +kernel)

/-- Cat has been given the identity of ann after all others, and ann falls below
her.  The update drops ann and reports no position, and the identity is found
where cat stands. -/
theorem dropped_row_leaves_namesake :
    let board := (Board.empty 1 PointTable.blank).run
      (.findOrCreate "ann" none :: turns (2 ^ 31))
    let ann : RankId := { number := 0 }
    let result := board.update ann (StatBlock.zero.award (-5))
    Descending board.rows ∧ (∃ row ∈ board.rows, row.id = ann) ∧
    result.1 = none ∧ result.2.positionOf? ann = some 1 := by
  intro board ann result
  have whole : board =
      overfull PointTable.blank [freshRow PointTable.blank "ann" 0] "cat" 0 :=
    run_turns_after_ann PointTable.blank
  simp only [result, whole]
  exact ⟨descending_iff_scores.mpr (by decide +kernel), by decide +kernel,
    by decide +kernel, by decide +kernel⟩

end Board

end Fragboard.Rank
