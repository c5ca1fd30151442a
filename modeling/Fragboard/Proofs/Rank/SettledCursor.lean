import Fragboard.Rank.Cursor

/-!
# Settled cursors

Settling a cursor compares the row in focus with its neighbours only.  It leaves
the other rows alone and stops where neither neighbour should stand on the other
side.  Such a cursor lists its rows in order exactly when the other rows are in
order among themselves, so settling repairs one row that is out of place and no
more.
-/

namespace Fragboard.Rank

/-- Scores never rise from a row to a later one. -/
def Descending (rows : List Row) : Prop :=
  rows.Pairwise fun higher lower => lower.score ≤ higher.score

theorem descending_iff_scores {rows : List Row} :
    Descending rows ↔
      (rows.map Row.score).Pairwise fun higher lower => lower ≤ higher := by
  rw [List.pairwise_map, Descending]

theorem Descending.sublist {kept rows : List Row} (sorted : Descending rows)
    (sublist : kept.Sublist rows) : Descending kept :=
  List.Pairwise.sublist sublist sorted

theorem Descending.take {rows : List Row} (sorted : Descending rows)
    (count : Nat) : Descending (rows.take count) :=
  sorted.sublist (List.take_sublist count rows)

namespace Cursor

/-- The rows that are not in focus, in order. -/
def others (cursor : Cursor) : List Row :=
  cursor.above.reverse ++ cursor.below

@[simp] theorem mapRow_row (cursor : Cursor) (change : Row → Row) :
    (cursor.mapRow change).row = change cursor.row :=
  rfl

@[simp] theorem mapRow_above (cursor : Cursor) (change : Row → Row) :
    (cursor.mapRow change).above = cursor.above :=
  rfl

@[simp] theorem mapRow_below (cursor : Cursor) (change : Row → Row) :
    (cursor.mapRow change).below = cursor.below :=
  rfl

@[simp] theorem mapRow_others (cursor : Cursor) (change : Row → Row) :
    (cursor.mapRow change).others = cursor.others :=
  rfl

/-- Neither neighbour should stand on the other side of the row in focus. -/
structure Settled (cursor : Cursor) : Prop where
  above : ∀ neighbour ∈ cursor.above.head?,
    cursor.row.score ≤ neighbour.score
  below : ∀ neighbour ∈ cursor.below.head?,
    neighbour.score ≤ cursor.row.score

@[simp] theorem climb_row (row : Row) (above below : List Row) :
    (climb row above below).row = row := by
  fun_induction climb row above below with
  | case1 below => rfl
  | case2 neighbour above below lower ih => exact ih
  | case3 neighbour above below notLower => rfl

@[simp] theorem climb_others (row : Row) (above below : List Row) :
    (climb row above below).others = above.reverse ++ below := by
  fun_induction climb row above below with
  | case1 below => rfl
  | case2 neighbour above below lower ih => simp [ih]
  | case3 neighbour above below notLower => rfl

theorem climb_above (row : Row) (above below : List Row) :
    ∀ neighbour ∈ (climb row above below).above.head?,
      row.score ≤ neighbour.score := by
  fun_induction climb row above below with
  | case1 below => simp
  | case2 neighbour above below lower ih => exact ih
  | case3 neighbour above below notLower =>
      simpa using Int32.not_lt.mp notLower

/-- Only rows of lower score are passed on the way up. -/
theorem climb_below (row : Row) {above below : List Row}
    (lower : ∀ other ∈ below, other.score < row.score) :
    ∀ other ∈ (climb row above below).below, other.score < row.score := by
  fun_induction climb row above below with
  | case1 below => exact lower
  | case2 neighbour above below passed ih =>
      apply ih
      intro other member
      rcases List.mem_cons.mp member with same | later
      · rw [same]
        exact passed
      · exact lower other later
  | case3 neighbour above below notPassed => exact lower

theorem climb_of_notLower (row : Row) {above : List Row} (below : List Row)
    (notLower : ∀ neighbour ∈ above.head?, row.score ≤ neighbour.score) :
    climb row above below =
      { above := above, row := row, below := below } := by
  cases above with
  | nil => rfl
  | cons neighbour above =>
      have next := notLower neighbour rfl
      rw [climb, if_neg (Int32.not_lt.mpr next)]

@[simp] theorem sink_row (row : Row) (above below : List Row) :
    (sink row above below).row = row := by
  fun_induction sink row above below with
  | case1 above => rfl
  | case2 above neighbour below higher ih => exact ih
  | case3 above neighbour below notHigher => rfl

@[simp] theorem sink_others (row : Row) (above below : List Row) :
    (sink row above below).others = above.reverse ++ below := by
  fun_induction sink row above below with
  | case1 above => rfl
  | case2 above neighbour below higher ih => simp [ih]
  | case3 above neighbour below notHigher => rfl

theorem sink_above (row : Row) (above below : List Row)
    (start : ∀ neighbour ∈ above.head?, row.score ≤ neighbour.score) :
    ∀ neighbour ∈ (sink row above below).above.head?,
      row.score ≤ neighbour.score := by
  fun_induction sink row above below with
  | case1 above => exact start
  | case2 above neighbour below higher ih =>
      apply ih
      simpa using Int32.le_of_lt higher
  | case3 above neighbour below notHigher => exact start

theorem sink_below (row : Row) (above below : List Row) :
    ∀ neighbour ∈ (sink row above below).below.head?,
      neighbour.score ≤ row.score := by
  fun_induction sink row above below with
  | case1 above => simp
  | case2 above neighbour below higher ih => exact ih
  | case3 above neighbour below notHigher =>
      simpa using Int32.not_lt.mp notHigher

/-- Only rows of higher score are passed on the way down. -/
theorem sink_passed (row : Row) {above below : List Row}
    (higher : ∀ other ∈ above, row.score < other.score) :
    ∀ other ∈ (sink row above below).above, row.score < other.score := by
  fun_induction sink row above below with
  | case1 above => exact higher
  | case2 above neighbour below passed ih =>
      apply ih
      intro other member
      rcases List.mem_cons.mp member with same | later
      · rw [same]
        exact passed
      · exact higher other later
  | case3 above neighbour below notPassed => exact higher

theorem sink_of_notHigher (row : Row) (above : List Row) {below : List Row}
    (notHigher : ∀ neighbour ∈ below.head?, neighbour.score ≤ row.score) :
    sink row above below = { above := above, row := row, below := below } := by
  cases below with
  | nil => rfl
  | cons neighbour below =>
      have next := notHigher neighbour rfl
      rw [sink, if_neg (Int32.not_lt.mpr next)]

@[simp] theorem settle_row (cursor : Cursor) :
    cursor.settle.row = cursor.row := by
  simp [settle]

@[simp] theorem settle_others (cursor : Cursor) :
    cursor.settle.others = cursor.others := by
  have raised := climb_others cursor.row cursor.above cursor.below
  simp only [settle, sink_others]
  exact raised

theorem settle_settled (cursor : Cursor) : cursor.settle.Settled := by
  have raised := climb_above cursor.row cursor.above cursor.below
  constructor
  · rw [settle_row]
    simpa [settle] using sink_above cursor.row _ _ raised
  · rw [settle_row]
    simpa [settle] using sink_below cursor.row _ _

/-- A row that has its place stays there. -/
theorem Settled.settle_eq {cursor : Cursor} (settled : cursor.Settled) :
    cursor.settle = cursor := by
  rw [settle, climb_of_notLower cursor.row cursor.below settled.above,
    sink_of_notHigher cursor.row cursor.above settled.below]

/-- A row that is higher than all below it only climbs. -/
theorem settle_below (cursor : Cursor)
    (lower : ∀ other ∈ cursor.below, other.score < cursor.row.score) :
    ∀ other ∈ cursor.settle.below, other.score < cursor.row.score := by
  have passed : ∀ other ∈ (climb cursor.row cursor.above cursor.below).below,
      other.score < cursor.row.score := climb_below cursor.row lower
  rw [settle, climb_row, sink_of_notHigher]
  · exact passed
  · intro neighbour first
    exact Int32.le_of_lt (passed neighbour (List.mem_of_mem_head? first))

/-- A row that is lower than all above it only sinks. -/
theorem settle_above (cursor : Cursor)
    (higher : ∀ other ∈ cursor.above, cursor.row.score < other.score) :
    ∀ other ∈ cursor.settle.above, cursor.row.score < other.score := by
  have stays : climb cursor.row cursor.above cursor.below = cursor := by
    apply climb_of_notLower
    intro neighbour first
    exact Int32.le_of_lt (higher neighbour (List.mem_of_mem_head? first))
  rw [settle, stays]
  exact sink_passed cursor.row higher

theorem rows_perm (cursor : Cursor) :
    cursor.rows.Perm (cursor.row :: cursor.others) :=
  List.perm_middle

/-- With every other row in order, no row above is lower than the row in
focus. -/
private theorem Settled.le_above {cursor : Cursor} (settled : cursor.Settled)
    (sorted : Descending cursor.above.reverse) :
    ∀ higher ∈ cursor.above, cursor.row.score ≤ higher.score := by
  have nearest := settled.above
  cases rows : cursor.above with
  | nil => simp
  | cons neighbour above =>
      rw [rows] at sorted nearest
      have next : cursor.row.score ≤ neighbour.score := by simpa using nearest
      have beyond := (List.pairwise_cons.mp
        (List.pairwise_reverse.mp sorted)).1
      intro higher member
      rcases List.mem_cons.mp member with same | later
      · rw [same]
        exact next
      · exact Int32.le_trans next (beyond higher later)

private theorem Settled.below_le {cursor : Cursor} (settled : cursor.Settled)
    (sorted : Descending cursor.below) :
    ∀ lower ∈ cursor.below, lower.score ≤ cursor.row.score := by
  have nearest := settled.below
  cases rows : cursor.below with
  | nil => simp
  | cons neighbour below =>
      rw [rows] at sorted nearest
      have next : neighbour.score ≤ cursor.row.score := by simpa using nearest
      have beyond := (List.pairwise_cons.mp sorted).1
      intro lower member
      rcases List.mem_cons.mp member with same | later
      · rw [same]
        exact next
      · exact Int32.le_trans (beyond lower later) next

theorem Settled.descending_iff {cursor : Cursor} (settled : cursor.Settled) :
    Descending cursor.rows ↔ Descending cursor.others := by
  constructor
  · intro sorted
    exact sorted.sublist
      ((List.Sublist.refl _).append (List.sublist_cons_self _ _))
  · intro sorted
    obtain ⟨above, below, across⟩ := List.pairwise_append.mp sorted
    refine List.pairwise_append.mpr
      ⟨above, List.pairwise_cons.mpr ⟨settled.below_le below, below⟩, ?_⟩
    intro higher member lower lowerMember
    rcases List.mem_cons.mp lowerMember with same | later
    · rw [same]
      exact settled.le_above above higher (List.mem_reverse.mp member)
    · exact across higher member lower later

/-- The same cursor with only some of the rows below. -/
def keep (cursor : Cursor) (count : Nat) : Cursor :=
  { cursor with below := cursor.below.take count }

theorem Settled.keep {cursor : Cursor} (settled : cursor.Settled)
    (count : Nat) : (cursor.keep count).Settled := by
  constructor
  · exact settled.above
  · intro neighbour member
    apply settled.below
    cases count with
    | zero => simp [Cursor.keep] at member
    | succ count =>
        cases rows : cursor.below with
        | nil => simp [Cursor.keep, rows] at member
        | cons next below => simpa [Cursor.keep, rows] using member

/-- A cut behind a settled row leaves the rest in order exactly when the other
rows that remain are in order. -/
theorem Settled.descending_take_iff {cursor : Cursor}
    (settled : cursor.Settled) {count : Nat}
    (inside : cursor.above.length < count) :
    Descending (cursor.rows.take count) ↔
      Descending (cursor.others.take (count - 1)) := by
  obtain ⟨left, rfl⟩ : ∃ left, count = cursor.above.length + (left + 1) :=
    ⟨count - cursor.above.length - 1, by omega⟩
  have rows : cursor.rows.take (cursor.above.length + (left + 1)) =
      (cursor.keep left).rows := by
    simp [Cursor.rows, Cursor.keep, List.take_append, List.take_of_length_le]
  have others : cursor.others.take (cursor.above.length + (left + 1) - 1) =
      (cursor.keep left).others := by
    have length : cursor.above.length + (left + 1) - 1 =
        cursor.above.length + left := by omega
    simp [Cursor.others, Cursor.keep, List.take_append,
      List.take_of_length_le, length]
  rw [rows, others]
  exact (settled.keep left).descending_iff

/-- A cut in front of the row in focus leaves other rows only. -/
theorem take_rows_of_le {cursor : Cursor} {count : Nat}
    (outside : count ≤ cursor.above.length) :
    cursor.rows.take count = cursor.others.take count := by
  have inside : count ≤ cursor.above.reverse.length := by simpa using outside
  simp only [Cursor.rows, Cursor.others, List.take_append_of_le_length inside]

theorem seekBelow?_rows {id : RankId} {above rows : List Row} {cursor : Cursor}
    (found : seekBelow? id above rows = some cursor) :
    cursor.rows = above.reverse ++ rows ∧ cursor.row.id = id ∧
      cursor.others = above.reverse ++ rows.eraseP (·.id == id) := by
  fun_induction seekBelow? id above rows with
  | case1 above => contradiction
  | case2 above row below same =>
      obtain rfl := Option.some.inj found
      simp [Cursor.rows, others, same]
  | case3 above row below different ih =>
      obtain ⟨sameRows, sameId, sameOthers⟩ := ih found
      simp [sameRows, sameId, sameOthers, different]

theorem seekBelow?_append {id : RankId} {rows : List Row}
    (absent : ∀ row ∈ rows, row.id ≠ id) (above rest : List Row) :
    seekBelow? id above (rows ++ rest) =
      seekBelow? id (rows.reverse ++ above) rest := by
  induction rows generalizing above with
  | nil => rfl
  | cons row rows ih =>
      rw [List.cons_append, seekBelow?, if_neg (absent row List.mem_cons_self),
        ih fun later member => absent later (List.mem_cons_of_mem _ member),
        List.reverse_cons, List.append_assoc, List.singleton_append]

/-- The first row with an identity is the one that is found. -/
theorem seek?_of_first (row : Row) {above : List Row} (below : List Row)
    (first : ∀ other ∈ above, other.id ≠ row.id) :
    seek? row.id (above ++ row :: below) =
      some { above := above.reverse, row := row, below := below } := by
  rw [seek?, seekBelow?_append first, List.append_nil, seekBelow?, if_pos rfl]

theorem seekBelow?_eq_none_iff {id : RankId} {above rows : List Row} :
    seekBelow? id above rows = none ↔ ∀ row ∈ rows, row.id ≠ id := by
  fun_induction seekBelow? id above rows with
  | case1 above => simp
  | case2 above row below same => simp [same]
  | case3 above row below different ih => simp [ih, different]

theorem seek?_rows {id : RankId} {rows : List Row} {cursor : Cursor}
    (found : seek? id rows = some cursor) : cursor.rows = rows :=
  (seekBelow?_rows found).1

theorem seek?_row {id : RankId} {rows : List Row} {cursor : Cursor}
    (found : seek? id rows = some cursor) : cursor.row.id = id :=
  (seekBelow?_rows found).2.1

theorem seek?_others {id : RankId} {rows : List Row} {cursor : Cursor}
    (found : seek? id rows = some cursor) :
    cursor.others = rows.eraseP (·.id == id) :=
  (seekBelow?_rows found).2.2

theorem seekBelow?_find {id : RankId} {above rows : List Row} {cursor : Cursor}
    (found : seekBelow? id above rows = some cursor) :
    rows.find? (·.id == id) = some cursor.row := by
  fun_induction seekBelow? id above rows with
  | case1 above => contradiction
  | case2 above row below same =>
      obtain rfl := Option.some.inj found
      simp [same]
  | case3 above row below different ih =>
      simp [different, ih found]

/-- The row in focus is the first one with its identity. -/
theorem seek?_find {id : RankId} {rows : List Row} {cursor : Cursor}
    (found : seek? id rows = some cursor) :
    rows.find? (·.id == id) = some cursor.row :=
  seekBelow?_find found

theorem seek?_eq_none_iff {id : RankId} {rows : List Row} :
    seek? id rows = none ↔ ∀ row ∈ rows, row.id ≠ id :=
  seekBelow?_eq_none_iff

end Cursor

end Fragboard.Rank
