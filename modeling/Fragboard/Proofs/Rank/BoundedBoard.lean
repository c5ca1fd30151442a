import Fragboard.Proofs.Rank.FreshIdentity
import Mathlib.Data.List.Induction
import Mathlib.Data.List.Sort

/-!
# Bounded and unbounded leaderboards

A fresh row that is updated at once goes behind the last row of at least its
score.  Whether a row belongs to the first few of a list does not depend on what
comes after them, so a board that drops rows as soon as it is full holds the same
rows as one that keeps many more and shows as many: nothing that was dropped
would have come back.
-/

namespace Fragboard.Rank

/-- Puts a row in front of the first one with a lower score. -/
def place (row : Row) (rows : List Row) : List Row :=
  rows.orderedInsert (fun fresh other => other.score < fresh.score) row

theorem place_cons (row other : Row) (rows : List Row) :
    place row (other :: rows) =
      if other.score < row.score then row :: other :: rows
      else other :: place row rows :=
  rfl

theorem mem_place {row other : Row} {rows : List Row} :
    other ∈ place row rows ↔ other = row ∨ other ∈ rows :=
  List.mem_orderedInsert _

theorem length_place (row : Row) (rows : List Row) :
    (place row rows).length = rows.length + 1 :=
  List.orderedInsert_length _ rows row

theorem place_of_lower (row : Row) {rows : List Row}
    (lower : ∀ other ∈ rows, other.score < row.score) :
    place row rows = row :: rows := by
  cases rows with
  | nil => rfl
  | cons other rows =>
      rw [place_cons, if_pos (lower other List.mem_cons_self)]

theorem place_append (row : Row) {front : List Row} (back : List Row)
    (notLower : ∀ other ∈ front, row.score ≤ other.score) :
    place row (front ++ back) = front ++ place row back := by
  induction front with
  | nil => rfl
  | cons other front ih =>
      have first := notLower other List.mem_cons_self
      rw [List.cons_append, place_cons, if_neg (Int32.not_lt.mpr first),
        ih fun later member => notLower later (List.mem_cons_of_mem _ member),
        List.cons_append]

/-- Where a row goes among the first rows is settled by these rows. -/
theorem take_place (row : Row) (rows : List Row) (count : Nat) :
    (place row rows).take count = (place row (rows.take count)).take count := by
  induction rows generalizing count with
  | nil => rw [List.take_nil]
  | cons other rows ih =>
      cases count with
      | zero => rw [List.take_zero, List.take_zero]
      | succ count =>
          rw [List.take_succ_cons, place_cons, place_cons]
          split
          · have cut : (other :: rows).take count =
                (other :: rows.take count).take count := by
              rw [← List.take_succ_cons, List.take_take,
                Nat.min_eq_left (Nat.le_succ count)]
            rw [List.take_succ_cons, List.take_succ_cons, cut]
          · rw [List.take_succ_cons, List.take_succ_cons, ih]

namespace Cursor

/-- A row that climbs through ordered rows goes where it is placed. -/
theorem climb_rows (row : Row) {above below : List Row}
    (sorted : Descending above.reverse)
    (lower : ∀ other ∈ below, other.score < row.score) :
    (climb row above below).rows = place row (above.reverse ++ below) := by
  fun_induction climb row above below with
  | case1 below => exact (place_of_lower row lower).symm
  | case2 neighbour above below passed ih =>
      rw [List.reverse_cons] at sorted ⊢
      rw [List.append_assoc, List.singleton_append]
      apply ih (sorted.sublist (List.sublist_append_left _ _))
      intro other member
      rcases List.mem_cons.mp member with same | later
      · rw [same]
        exact passed
      · exact lower other later
  | case3 neighbour above below notPassed =>
      have nearest : row.score ≤ neighbour.score := Int32.not_lt.mp notPassed
      have beyond := (List.pairwise_cons.mp
        (List.pairwise_reverse.mp sorted)).1
      rw [place_append, place_of_lower row lower]
      · rfl
      · intro other member
        rcases List.mem_cons.mp (List.mem_reverse.mp member) with same | later
        · rw [same]
          exact nearest
        · exact Int32.le_trans nearest (beyond other later)

theorem settle_last (row : Row) {rows : List Row} (sorted : Descending rows) :
    (Cursor.mk rows.reverse row []).settle.rows = place row rows := by
  have nothing : ∀ other ∈ ([] : List Row), other.score < row.score :=
    fun _ member => absurd member List.not_mem_nil
  have upward : Descending rows.reverse.reverse := by
    rwa [List.reverse_reverse]
  have climbed := climb_rows row upward nothing
  have lower : ∀ other ∈ (climb row rows.reverse []).below,
      other.score < row.score := climb_below row nothing
  rw [List.reverse_reverse, List.append_nil] at climbed
  rw [settle, climb_row, sink_of_notHigher, ← climbed]
  · simp [Cursor.rows]
  · intro neighbour first
    exact Int32.le_of_lt (lower neighbour (List.mem_of_mem_head? first))

end Cursor

namespace Board

theorem find?_eq_none_of_absent {board : Board} {name : String}
    (absent : ∀ row ∈ board.rows, foldCase row.name ≠ foldCase name)
    (unique : Option String) : board.find? name unique = none := by
  rw [find?, Option.map_eq_none_iff, List.find?_eq_none]
  intro row member
  simp [Row.matchesKey, absent row member]

/-- The row that a key gets when it is not on the board. -/
def emptyRow (board : Board) (entry : LifeEntry) : Row :=
  { id := { number := board.nextId }
    name := entry.name
    unique := entry.unique.getD ""
    stats := StatBlock.zero
    score := board.points.score StatBlock.zero }

def newRow (board : Board) (entry : LifeEntry) : Row :=
  (board.emptyRow entry).gain board.points entry.life

/-- A life under an unknown key puts its row where the row belongs, then drops
the lowest one if the board is full. -/
theorem enter_unknown {board : Board} {entry : LifeEntry}
    (unknown : board.find? entry.name entry.unique = none)
    (unused : ∀ row ∈ board.rows, row.id ≠ { number := board.nextId })
    (fits : board.rows.length ≤ board.capacity)
    (sorted : Descending board.rows) :
    board.enter entry =
      { board with
        rows := (place (board.newRow entry) board.rows).take board.capacity
        nextId := board.nextId + 1 } := by
  let appended : Board :=
    { board with
      rows := board.rows ++ [board.emptyRow entry]
      nextId := board.nextId + 1 }
  have created : board.findOrCreate entry.name entry.unique =
      ({ number := board.nextId }, appended) := by
    simp only [findOrCreate, unknown, append, evict,
      List.take_of_length_le fits]
    rfl
  have found : Cursor.seek? { number := board.nextId } appended.rows =
      some (Cursor.mk board.rows.reverse (board.emptyRow entry) []) :=
    Cursor.seek?_of_first (board.emptyRow entry) [] unused
  have settled : (appended.settledCursor entry.life
      (Cursor.mk board.rows.reverse (board.emptyRow entry) [])).rows =
        place (board.newRow entry) board.rows :=
    Cursor.settle_last _ sorted
  simp only [enter, created]
  rw [update_of_found entry.life found, settled]

def lifeOf (player : String × StatBlock) : LifeEntry :=
  { name := player.1, unique := none, life := player.2 }

def credit (board : Board) (player : String × StatBlock) : Board :=
  board.enter (lifeOf player)

theorem credit_of_absent {board : Board} {player : String × StatBlock}
    (absent : ∀ row ∈ board.rows, foldCase row.name ≠ foldCase player.1)
    (unused : ∀ row ∈ board.rows, row.id ≠ { number := board.nextId })
    (fits : board.rows.length ≤ board.capacity)
    (sorted : Descending board.rows) :
    board.credit player =
      { board with
        rows := (place (board.newRow (lifeOf player)) board.rows).take
          board.capacity
        nextId := board.nextId + 1 } := by
  have unknown : board.find? (lifeOf player).name (lifeOf player).unique =
      none := find?_eq_none_of_absent absent none
  exact enter_unknown unknown unused fits sorted

def credits (board : Board) (players : List (String × StatBlock)) : Board :=
  players.foldl credit board

theorem credits_eq_changes (board : Board)
    (players : List (String × StatBlock)) :
    board.credits players =
      board.changes (players.map fun player => .enter (lifeOf player)) := by
  rw [changes, List.foldl_map]
  rfl

theorem capacity_credits (board : Board)
    (players : List (String × StatBlock)) :
    (board.credits players).capacity = board.capacity := by
  rw [credits_eq_changes]
  exact (sameSettings_changes board _).capacity

theorem credits_concat (board : Board) (players : List (String × StatBlock))
    (player : String × StatBlock) :
    board.credits (players ++ [player]) =
      (board.credits players).credit player := by
  rw [credits, List.foldl_concat, credits]

/-- The narrow board shows the first rows of the wide one, and they will give the
next row the same identity.  The wide board has a row for each player credited so
far, as long as there is room, and for nobody else. -/
structure ShowsTop (narrow wide : Board) (players : List (String × StatBlock)) :
    Prop where
  rows : narrow.rows = wide.rows.take narrow.capacity
  capacity : narrow.capacity ≤ wide.capacity
  points : narrow.points = wide.points
  nextId : narrow.nextId = wide.nextId
  ranked : wide.Ranked players.length
  length : wide.rows.length = min wide.capacity players.length
  known : ∀ row ∈ wide.rows, ∃ player ∈ players,
    foldCase row.name = foldCase player.1

namespace ShowsTop

theorem empty {capacity wide : Nat} (points : PointTable)
    (narrower : capacity ≤ wide) :
    ShowsTop (Board.empty capacity points) (Board.empty wide points) [] where
  rows := List.take_nil.symm
  capacity := narrower
  points := rfl
  nextId := rfl
  ranked := ranked_empty wide points
  length := (Nat.min_zero wide).symm
  known := fun _ member => absurd member List.not_mem_nil

variable {narrow wide : Board} {players : List (String × StatBlock)}

theorem credit (shows : ShowsTop narrow wide players)
    {player : String × StatBlock}
    (new : ∀ earlier ∈ players, foldCase earlier.1 ≠ foldCase player.1)
    (left : players.length < UInt32.size) :
    ShowsTop (narrow.credit player) (wide.credit player)
      (players ++ [player]) := by
  obtain ⟨numbered, sorted⟩ := shows.ranked.ordered (Nat.le_of_lt left)
  have unused := numbered.fresh left
  have absent : ∀ row ∈ wide.rows, foldCase row.name ≠ foldCase player.1 := by
    intro row member same
    obtain ⟨earlier, earlierMember, sameName⟩ := shows.known row member
    exact new earlier earlierMember (sameName.symm.trans same)
  have shown : ∀ row ∈ narrow.rows, row ∈ wide.rows := by
    intro row member
    rw [shows.rows] at member
    exact List.mem_of_mem_take member
  have creditWide := credit_of_absent absent unused shows.ranked.fits sorted
  have creditNarrow : narrow.credit player =
      { narrow with
        rows := (place (narrow.newRow (lifeOf player)) narrow.rows).take
          narrow.capacity
        nextId := narrow.nextId + 1 } := by
    apply credit_of_absent
    · exact fun row member => absent row (shown row member)
    · intro row member
      rw [shows.nextId]
      exact unused row (shown row member)
    · rw [shows.rows]
      exact List.length_take_le _ _
    · rw [shows.rows]
      exact sorted.take narrow.capacity
  have sameRow : narrow.newRow (lifeOf player) =
      wide.newRow (lifeOf player) := by
    simp only [newRow, emptyRow, shows.points, shows.nextId]
  have created : wide.createdBy (.enter (lifeOf player)) = 1 := by
    simp [createdBy, lifeOf, find?_eq_none_of_absent absent none]
  have ranked : (wide.credit player).Ranked (players.length + 1) := by
    rw [← created]
    exact shows.ranked.change (.enter (lifeOf player))
  rw [creditWide] at ranked ⊢
  rw [creditNarrow]
  refine
    { rows := ?_
      capacity := shows.capacity
      points := shows.points
      nextId := congrArg (· + 1) shows.nextId
      ranked := ?_
      length := ?_
      known := ?_ }
  · rw [sameRow, shows.rows, List.take_take, Nat.min_eq_left shows.capacity]
    exact (take_place _ _ _).symm
  · rw [List.length_append, List.length_singleton]
    exact ranked
  · rw [List.length_take, length_place, shows.length, List.length_append,
      List.length_singleton]
    dsimp only
    omega
  · intro row member
    rcases mem_place.mp (List.mem_of_mem_take member) with same | old
    · rw [same]
      exact ⟨player, List.mem_append_right _ List.mem_cons_self, rfl⟩
    · obtain ⟨earlier, earlierMember, sameName⟩ := shows.known row old
      exact ⟨earlier, List.mem_append_left _ earlierMember, sameName⟩

end ShowsTop

theorem showsTop_credits {capacity wide : Nat} (points : PointTable)
    (narrower : capacity ≤ wide) {players : List (String × StatBlock)}
    (different : players.Pairwise fun first second =>
      foldCase first.1 ≠ foldCase second.1)
    (left : players.length ≤ UInt32.size) :
    ShowsTop ((Board.empty capacity points).credits players)
      ((Board.empty wide points).credits players) players := by
  induction players using List.reverseRecOn with
  | nil => exact ShowsTop.empty points narrower
  | append_singleton players player ih =>
      obtain ⟨before, _, new⟩ := List.pairwise_append.mp different
      rw [List.length_append, List.length_singleton] at left
      rw [credits_concat, credits_concat]
      refine (ih before (by omega)).credit ?_ (by omega)
      intro earlier member
      exact new earlier member player List.mem_cons_self

/-- The players of a sequence have different names.  After each of the first
`UInt32.size` of them, which is how many identities there are, a board shows the
first rows of any board of the same table that keeps more, and that one keeps a row
for every player as long as there is room. -/
theorem rows_credits_eq_take {capacity wide : Nat} (points : PointTable)
    (narrower : capacity ≤ wide) {players : List (String × StatBlock)}
    (different : players.Pairwise fun first second =>
      foldCase first.1 ≠ foldCase second.1)
    {done : List (String × StatBlock)} (start : done <+: players)
    (left : done.length ≤ UInt32.size) :
    ((Board.empty capacity points).credits done).rows =
      ((Board.empty wide points).credits done).rows.take capacity ∧
    ((Board.empty wide points).credits done).rows.length =
      min wide done.length := by
  have shows := showsTop_credits points narrower
    (different.sublist start.sublist) left
  have rows := shows.rows
  have length := shows.length
  rw [capacity_credits] at rows length
  exact ⟨rows, length⟩

/-- Places for two rows against as many as a machine word can count. -/
theorem rows_credits_of_four :
    let players : List (String × StatBlock) :=
      [("ann", StatBlock.zero.award 5), ("bob", StatBlock.zero.award (-3)),
        ("cat", StatBlock.zero.award 5), ("dan", StatBlock.zero.award 9)]
    let narrow := (Board.empty 2 PointTable.blank).credits players
    let wide := (Board.empty 18446744073709551615 PointTable.blank).credits
      players
    (players.Pairwise fun first second =>
      foldCase first.1 ≠ foldCase second.1) ∧
    narrow.rows = wide.rows.take 2 ∧ wide.rows.length = 4 ∧
    narrow.rows.map Row.name = ["dan", "ann"] := by
  intro players narrow wide
  have different : players.Pairwise fun first second =>
      foldCase first.1 ≠ foldCase second.1 := by decide
  obtain ⟨rows, length⟩ := rows_credits_eq_take PointTable.blank
    (by decide : 2 ≤ 18446744073709551615) different List.prefix_rfl
    (by decide)
  exact ⟨different, rows, length, by decide⟩

end Board

end Fragboard.Rank
