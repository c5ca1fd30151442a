import Fragboard.Proofs.Rank.PlacedRows

/-!
# Rows that gain

Neither merging nor scoring turns an order round, at the bounds no more than
between them: counters that are not negative make a block larger, and a larger
block has at least the score, as long as deaths and headshots do not weigh
against a player.

So a gain takes a row up or leaves it where it is.  The rows that it passes move
down by one place, and all others stay.
-/

namespace Fragboard

theorem toInt_le_satAdd {word amount : Int32} (rise : 0 ≤ amount.toInt) :
    word.toInt ≤ (satAdd word amount).toInt := by
  have below := toInt_le_highest word
  rw [toInt_satAdd]
  omega

theorem toInt_satMul_le {weight word more : Int32} (favours : 0 ≤ weight.toInt)
    (rise : word.toInt ≤ more.toInt) :
    (satMul weight word).toInt ≤ (satMul weight more).toInt := by
  have product := Int.mul_le_mul_of_nonneg_left rise favours
  rw [toInt_satMul, toInt_satMul]
  omega

/-- The counters on which a score depends. -/
def Counter.scored : List Counter :=
  [.points, .deaths, .headshots]

theorem PointTable.score_merge_le {table : PointTable}
    (death : 0 ≤ table.death.toInt) (headshot : 0 ≤ table.headshot.toInt)
    (stats : StatBlock) {delta : StatBlock}
    (good : ∀ counter ∈ Counter.scored, 0 ≤ (delta.get counter).toInt) :
    (table.score stats).toInt ≤ (table.score (stats.merge delta)).toInt := by
  have rise (counter : Counter) (scored : counter ∈ Counter.scored) :
      (stats.get counter).toInt ≤ ((stats.merge delta).get counter).toInt := by
    rw [StatBlock.get_merge]
    exact toInt_le_satAdd (good counter scored)
  apply toInt_satAdd_le
  · apply toInt_satAdd_le
    · exact rise .points (by decide)
    · exact toInt_satMul_le death (rise .deaths (by decide))
  · exact toInt_satMul_le headshot (rise .headshots (by decide))

namespace Rank

/-- Where an item goes when another one is moved up past some: those that were
passed go down by one place. -/
def passedBy (reached left position : Nat) : Nat :=
  if reached ≤ position ∧ position < left then position + 1 else position

theorem passedBy_succ (reached left position : Nat) :
    passedBy (reached + 1) (left + 1) (position + 1) =
      passedBy reached left position + 1 := by
  simp only [passedBy, Nat.add_le_add_iff_right, Nat.add_lt_add_iff_right]
  split <;> rfl

section MovedUp

variable {α : Type} {above passed below : List α} {old new : α}

theorem getElem?_movedUp {index : Nat}
    (other : index ≠ above.length + passed.length) :
    (above ++ new :: (passed ++ below))[passedBy above.length
        (above.length + passed.length) index]? =
      (above ++ passed ++ old :: below)[index]? := by
  grind [passedBy]

theorem findIdx?_movedUp {belongs : α → Bool} (notOld : belongs old = false)
    (notNew : belongs new = false) :
    (above ++ new :: (passed ++ below)).findIdx? belongs =
      ((above ++ passed ++ old :: below).findIdx? belongs).map
        (passedBy above.length (above.length + passed.length)) := by
  rw [List.append_assoc]
  simp only [List.findIdx?_append, List.findIdx?_cons, notOld, notNew]
  cases inAbove : above.findIdx? belongs with
  | some index =>
      have bound := (List.findIdx?_eq_some_iff_getElem.mp inAbove).1
      have higher : ¬above.length ≤ index := Nat.not_le.mpr bound
      simp [passedBy, higher]
  | none =>
      cases inPassed : passed.findIdx? belongs with
      | some index =>
          have bound := (List.findIdx?_eq_some_iff_getElem.mp inPassed).1
          have between :
              index + above.length < above.length + passed.length := by omega
          simp [passedBy, between]
          omega
      | none =>
          cases below.findIdx? belongs with
          | none => rfl
          | some index =>
              have lower : ¬index + 1 + passed.length + above.length <
                  above.length + passed.length := by omega
              simp [passedBy, lower]
              omega

end MovedUp

namespace Board

/-- A row that does not lose is put back above rows that stood above it, if it is
moved at all. -/
theorem exists_passed {board : Board} (sorted : Descending board.rows)
    {above below : List Row} {row : Row}
    (rows : board.rows = above ++ row :: below)
    (first : ∀ other ∈ above, other.id ≠ row.id) {delta : StatBlock}
    (rise : row.score ≤ (row.gain board.points delta).score) :
    ∃ higher passed, above = higher ++ passed ∧
      board.update row.id delta =
        (if higher.length < board.capacity then some (higher.length + 1)
          else none,
        { board with
          rows := (higher ++ row.gain board.points delta ::
            (passed ++ below)).take board.capacity }) := by
  have found : Cursor.seek? row.id board.rows =
      some ⟨above.reverse, row, below⟩ := by
    rw [rows]
    exact Cursor.seek?_of_first row below first
  obtain ⟨higher, lower, others, ordered, _, _, stay, updated⟩ :=
    exists_place sorted found delta
  simp only [Cursor.others, List.reverse_reverse] at others stay updated
  rcases List.append_eq_append_iff.mp others with
    ⟨passed, whole, rest⟩ | ⟨sunk, whole, rest⟩
  · subst rest
    exact ⟨higher, passed, whole, updated⟩
  · cases sunk with
    | nil =>
        rw [List.append_nil] at whole
        rw [List.nil_append] at rest
        subst whole rest
        exact ⟨higher, [], (List.append_nil higher).symm, updated⟩
    | cons other sunk =>
        have higherThan : (row.gain board.points delta).score ≤ other.score :=
          (List.pairwise_append.mp ordered).2.2 other (by simp [whole]) _
            List.mem_cons_self
        have lowerThan : other.score ≤ row.score := by
          rw [rows] at sorted
          exact (List.pairwise_cons.mp (List.pairwise_append.mp sorted).2.1).1
            other (by simp [rest])
        have same := Int32.le_antisymm (Int32.le_trans higherThan lowerThan) rise
        obtain ⟨unmoved, _⟩ := stay same
        rw [unmoved] at whole
        simp at whole

/-- The first row with an identity is where the identity stands. -/
theorem exists_of_positionOf? {board : Board} {id : RankId} {position : Nat}
    (placed : board.positionOf? id = some position) :
    ∃ above row below, board.rows = above ++ row :: below ∧ row.id = id ∧
      (∀ other ∈ above, other.id ≠ id) ∧ position = above.length + 1 := by
  have present : ∃ row ∈ board.rows, row.id = id := by
    by_contra absent
    rw [positionOf?_eq_none_iff.mpr fun row member named =>
      absent ⟨row, member, named⟩] at placed
    contradiction
  obtain ⟨cursor, found⟩ := exists_cursor present
  obtain ⟨named, above, below, rows, unnamed⟩ :=
    List.find?_eq_some_iff_append.mp (Cursor.seek?_find found)
  obtain rfl := eq_of_beq named
  have first : ∀ other ∈ above, other.id ≠ cursor.row.id := by
    simpa using unnamed
  refine ⟨above, cursor.row, below, rows, rfl, first, ?_⟩
  exact Option.some.inj (placed.symm.trans (positionOf?_of_first rows first))

section MovedUp

variable {board after : Board} {above passed below : List Row} {old new : Row}
  (rows : board.rows = above ++ passed ++ old :: below)
  (moved : after.rows = above ++ new :: (passed ++ below))

include rows moved

theorem rowAt?_of_movedUp {place : Nat} {row : Row}
    (other : place ≠ (above ++ passed).length + 1)
    (standing : board.rowAt? place = some row) :
    after.rowAt? (passedBy (above.length + 1) ((above ++ passed).length + 1)
      place) = some row := by
  obtain ⟨positive, standing⟩ := Option.ite_none_left_eq_some.mp standing
  obtain ⟨index, rfl⟩ := Nat.exists_eq_succ_of_ne_zero positive
  have apart : index ≠ above.length + passed.length := by
    simpa using other
  rw [passedBy_succ, List.length_append, rowAt?, if_neg (Nat.succ_ne_zero _),
    Nat.add_sub_cancel, moved, getElem?_movedUp apart, ← rows]
  exact standing

theorem positionOf?_of_movedUp (named : new.id = old.id) {id : RankId}
    (other : id ≠ old.id) :
    after.positionOf? id = (board.positionOf? id).map
      (passedBy (above.length + 1) ((above ++ passed).length + 1)) := by
  have notOld : (old.id == id) = false := beq_eq_false_iff_ne.mpr other.symm
  have notNew : (new.id == id) = false := named ▸ notOld
  have found :
      (above ++ new :: (passed ++ below)).findIdx? (·.id == id) =
        ((above ++ passed ++ old :: below).findIdx? (·.id == id)).map
          (passedBy above.length (above.length + passed.length)) :=
    findIdx?_movedUp notOld notNew
  rw [positionOf?, positionOf?, rows, moved, found, Option.map_map,
    Option.map_map, List.length_append]
  exact congrArg (Option.map · _) (funext fun _ => (passedBy_succ _ _ _).symm)

end MovedUp

/-- A result that does not lower the score moves its row up past some rows or
leaves it. -/
theorem exists_movedUp {board : Board} (scored : board.Scored)
    (death : 0 ≤ board.points.death.toInt)
    (headshot : 0 ≤ board.points.headshot.toInt)
    (sorted : Descending board.rows)
    (fits : board.rows.length ≤ board.capacity) {id : RankId} {position : Nat}
    (placed : board.positionOf? id = some position) {delta : StatBlock}
    (good : ∀ counter ∈ Counter.scored, 0 ≤ (delta.get counter).toInt) :
    ∃ higher passed row below, board.rows = higher ++ passed ++ row :: below ∧
      row.id = id ∧ (∀ other ∈ higher, other.id ≠ id) ∧
      position = (higher ++ passed).length + 1 ∧
      board.update id delta = (some (higher.length + 1),
        { board with
          rows :=
            higher ++ row.gain board.points delta :: (passed ++ below) }) := by
  obtain ⟨above, row, below, rows, rfl, first, rfl⟩ :=
    exists_of_positionOf? placed
  have rise : row.score ≤ (row.gain board.points delta).score := by
    have before : row.score = board.points.score row.stats :=
      scored row (by simp [rows])
    rw [Int32.le_iff_toInt_le, before, Row.score_gain]
    exact PointTable.score_merge_le death headshot row.stats good
  obtain ⟨higher, passed, rfl, updated⟩ := exists_passed sorted rows first rise
  rw [rows] at fits
  simp only [List.length_append, List.length_cons] at fits
  refine ⟨higher, passed, row, below, rows, rfl, ?_, rfl, ?_⟩
  · exact fun other member => first other (List.mem_append_left passed member)
  · rw [updated, if_pos (by omega), List.take_of_length_le (by simp; omega)]

/-- On an ordered board with a place for every row, a result whose points, deaths
and headshots are not negative keeps its row on the board and never lowers its
rank, if deaths and headshots do not weigh against the player.  Every other row
stays on the board, at its position or, if it was passed, one below.  Counters,
products and sums may be anywhere in their range and stop at its bounds. -/
theorem good_result_keeps_ranks {capacity : Nat} {points : PointTable}
    (death : 0 ≤ points.death.toInt) (headshot : 0 ≤ points.headshot.toInt)
    (calls : List Call) {id : RankId} {position : Nat} {delta : StatBlock}
    (good : ∀ counter ∈ Counter.scored, 0 ≤ (delta.get counter).toInt) :
    let board := (empty capacity points).run calls
    let result := board.update id delta
    Descending board.rows → board.rows.length ≤ capacity →
    board.positionOf? id = some position →
    ∃ reached ≤ position, result.1 = some reached ∧
      result.2.positionOf? id = some reached ∧
      result.2.rows.length = board.rows.length ∧
      (∀ place row, place ≠ position → board.rowAt? place = some row →
        result.2.rowAt? (passedBy reached position place) = some row) ∧
      ∀ other ≠ id, result.2.positionOf? other =
        (board.positionOf? other).map (passedBy reached position) := by
  have settings := sameSettings_run (empty capacity points) calls
  have scored := scored_run capacity points calls
  generalize (empty capacity points).run calls = board at settings scored ⊢
  dsimp only
  intro sorted fits placed
  have table : board.points = points := settings.points
  have room : board.capacity = capacity := settings.capacity
  obtain ⟨higher, passed, row, below, rows, rfl, first, rfl, updated⟩ :=
    exists_movedUp scored (table ▸ death) (table ▸ headshot) sorted
      (room ▸ fits) placed good
  have moved : (board.update row.id delta).2.rows =
      higher ++ row.gain board.points delta :: (passed ++ below) := by
    rw [updated]
  have named := row.id_gain board.points delta
  refine ⟨higher.length + 1, by simp, by rw [updated], ?_, ?_, ?_, ?_⟩
  · have first : ∀ other ∈ higher,
        other.id ≠ (row.gain board.points delta).id := by rwa [named]
    have standing := positionOf?_of_first moved first
    rwa [named] at standing
  · rw [moved, rows]
    simp only [List.length_append, List.length_cons]
    omega
  · exact fun _ _ => rowAt?_of_movedUp rows moved
  · exact fun _ => positionOf?_of_movedUp rows moved named

/-- Two deaths of cat weigh more than a word can hold.  Her score stops at the
bound, where bob stands already, so she passes ann but not him. -/
theorem ranks_of_good_result_at_bound :
    let points := PointTable.blank.withBonuses 2147483647 4
    let calls : List Call :=
      [.findOrCreate "ann" none,
        .update { number := 0 } (StatBlock.zero.award 7),
        .findOrCreate "bob" none,
        .update { number := 1 } (StatBlock.zero.award 2147483647),
        .findOrCreate "cat" none,
        .update { number := 2 } (StatBlock.zero.award (-3))]
    let board := (empty 3 points).run calls
    let cat : RankId := { number := 2 }
    let delta := (StatBlock.zero.add .deaths 2).add .headshots 1
    let result := board.update cat delta
    Descending board.rows ∧ board.rows.map Row.name = ["bob", "ann", "cat"] ∧
    result.2.rows.map Row.name = ["bob", "cat", "ann"] ∧
    result.2.rows.map Row.score = [2147483647, 2147483647, 7] ∧
    ∃ reached ≤ 3, result.1 = some reached ∧
      ∀ other ≠ cat, result.2.positionOf? other =
        (board.positionOf? other).map (passedBy reached 3) := by
  intro points calls board cat delta result
  have sorted : Descending board.rows :=
    descending_iff_scores.mpr (by decide +kernel)
  have good : ∀ counter ∈ Counter.scored, 0 ≤ (delta.get counter).toInt := by
    decide +kernel
  have placed : board.positionOf? cat = some 3 := by decide +kernel
  obtain ⟨reached, risen, answer, _, _, _, others⟩ :=
    good_result_keeps_ranks (by decide +kernel) (by decide +kernel) calls good
      sorted (by decide +kernel) placed
  exact ⟨sorted, by decide +kernel, by decide +kernel, by decide +kernel,
    reached, risen, answer, others⟩

end Board

end Rank

end Fragboard
