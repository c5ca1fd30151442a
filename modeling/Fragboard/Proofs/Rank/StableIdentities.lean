import Fragboard.Proofs.Rank.UpdateOrder

/-!
# Identities as names of rows

Rows move, are dropped and are read anew, while others keep their identities.
As long as identities last, an identity that has been handed out means one row
for ever: the row answers to it until it leaves the board, with the changes that
were meant for it and no others, and from then on nothing does.

`Row.after` is what an operation does to a row that stays, and
`Board.get?_operate` the step from which the rest follows.
-/

namespace Fragboard.Rank

open Storage (Bytes FilePath FileTree)

/-- A call that changes a board, or a load from a file. -/
inductive Operation where
  | call (call : Board.Call)
  | load (tree : FileTree) (path : FilePath)

/-- The operation leaves no row on the board; a load, good or bad, brings others
at most. -/
def Operation.replacesRows : Operation → Bool
  | .call .clear | .call (.loadBytes _) | .load _ _ => true
  | .call _ => false

namespace Row

/-- What an operation makes of a row that it leaves on the board. -/
def after (row : Row) (points : PointTable) : Operation → Row
  | .call (.update id delta) =>
    if row.id = id then row.gain points delta else row
  | .call (.rename id name) =>
    if row.id = id then { row with name := name } else row
  | _ => row

def afterAll (row : Row) (points : PointTable)
    (operations : List Operation) : Row :=
  operations.foldl (fun row operation => row.after points operation) row

theorem id_after (row : Row) (points : PointTable) (operation : Operation) :
    (row.after points operation).id = row.id := by
  unfold after
  split
  · split
    · exact row.id_gain points _
    · rfl
  · split <;> rfl
  · rfl

end Row

namespace Board

def operate (board : Board) : Operation → Board
  | .call call => board.perform call
  | .load tree path => (board.load tree path).2

def operateAll (board : Board) (operations : List Operation) : Board :=
  operations.foldl operate board

/-- How many rows an image holds, none when it is rejected. -/
def recordCount (bytes : Bytes) : Nat :=
  match Image.decode bytes with
  | .ok records => records.length
  | .error _ => 0

/-- How many identities an operation hands out, those of rows that do not stay
included. -/
def handsOut (board : Board) : Operation → Nat
  | .call (.findOrCreate name unique) =>
    if (board.find? name unique).isSome then 0 else 1
  | .call (.loadBytes bytes) => recordCount bytes
  | .load tree path =>
    match tree.read path with
    | .ok bytes => recordCount bytes
    | .error _ => 0
  | .call _ => 0

/-- How many identities a sequence of operations hands out. -/
def handedOut (board : Board) : List Operation → Nat
  | [] => 0
  | operation :: rest =>
    board.handsOut operation + (board.operate operation).handedOut rest

theorem handedOut_append (board : Board) (first second : List Operation) :
    board.handedOut (first ++ second) =
      board.handedOut first + (board.operateAll first).handedOut second := by
  induction first generalizing board with
  | nil => exact (Nat.zero_add _).symm
  | cons operation rest ih =>
      rw [List.cons_append, handedOut, handedOut, ih, Nat.add_assoc]
      rfl

theorem points_operate (board : Board) (operation : Operation) :
    (board.operate operation).points = board.points := by
  cases operation with
  | call call => exact (sameSettings_perform board call).points
  | load tree path =>
      exact (sameSettings_change board (.load path (tree.read path))).points

theorem points_operateAll (board : Board) (operations : List Operation) :
    (board.operateAll operations).points = board.points := by
  induction operations generalizing board with
  | nil => rfl
  | cons operation rest ih =>
      exact (ih (board.operate operation)).trans
        (board.points_operate operation)

section Distinct

variable {board : Board} (distinct : (board.rows.map Row.id).Nodup)
  {id : RankId}

include distinct

theorem get?_eq_some_iff {row : Row} :
    board.get? id = some row ↔ row ∈ board.rows ∧ row.id = id := by
  constructor
  · intro found
    have here := List.find?_some found
    exact ⟨List.mem_of_find?_eq_some found, eq_of_beq here⟩
  · rintro ⟨member, rfl⟩
    obtain ⟨above, below, rows⟩ := List.append_of_mem member
    exact get?_of_distinct distinct rows

/-- The position of an identity is where its row stands. -/
theorem positionOf?_eq_some_iff {position : Nat} :
    board.positionOf? id = some position ↔
      ∃ row, board.rowAt? position = some row ∧ row.id = id := by
  constructor
  · intro placed
    obtain ⟨index, found, rfl⟩ := Option.map_eq_some_iff.mp placed
    obtain ⟨inside, here, _⟩ := List.findIdx?_eq_some_iff_getElem.mp found
    exact ⟨board.rows[index], by simp [rowAt?, inside], eq_of_beq here⟩
  · rintro ⟨row, found, rfl⟩
    obtain ⟨positive, found⟩ := Option.ite_none_left_eq_some.mp found
    obtain ⟨inside, here⟩ := List.getElem?_eq_some_iff.mp found
    have rows : board.rows = board.rows.take (position - 1) ++
        row :: board.rows.drop (position - 1 + 1) := by
      rw [← here, List.cons_getElem_drop_succ, List.take_append_drop]
    rw [positionOf?_of_distinct distinct rows, List.length_take]
    congr 1
    omega

end Distinct

theorem get?_eq_none_iff {board : Board} {id : RankId} :
    board.get? id = none ↔ ∀ row ∈ board.rows, row.id ≠ id := by
  simp [get?]

/-- Without a row nothing answers to an identity. -/
theorem answers_of_get?_eq_none {board : Board} {id : RankId}
    (gone : board.get? id = none) :
    board.positionOf? id = none ∧ (∀ name, board.rename? id name = none) ∧
    ∀ delta, board.update id delta = (none, board) := by
  have absent := get?_eq_none_iff.mp gone
  have unknown : Cursor.seek? id board.rows = none :=
    Cursor.seek?_eq_none_iff.mpr absent
  exact ⟨positionOf?_eq_none_iff.mpr absent,
    fun name => by rw [rename?, unknown, Option.map_none],
    fun delta => update_of_unknown delta unknown⟩

theorem mem_findOrCreate {board : Board} {name : String}
    {unique : Option String} {row : Row}
    (member : row ∈ (board.findOrCreate name unique).2.rows) :
    row ∈ board.rows ∨
      board.find? name unique = none ∧ row.id = { number := board.nextId } := by
  cases present : board.find? name unique with
  | some id =>
      simp only [findOrCreate, present] at member
      exact .inl member
  | none =>
      obtain ⟨fresh, id, _, rows⟩ := exists_fresh present
      rw [rows] at member
      rcases List.mem_append.mp member with kept | made
      · exact .inl (List.mem_of_mem_take kept)
      · rw [List.mem_singleton.mp made]
        exact .inr ⟨rfl, id⟩

theorem mem_appendRecords {board : Board} {count : Nat}
    (numbered : board.Numbered count) {records : List RankRecord}
    (left : count + records.length ≤ UInt32.size) {row : Row}
    (member : row ∈ (records.foldl appendRecord board).rows) :
    row ∈ board.rows ∨ count ≤ row.id.number.toNat := by
  induction records generalizing board count with
  | nil => exact .inl member
  | cons record records ih =>
      rw [List.length_cons] at left
      have first := numbered.append (by omega) record.name.unpack
        record.unique.unpack record.stats
      rcases ih first (by omega) member with old | later
      · rcases List.mem_append.mp old with kept | made
        · exact .inl kept
        · right
          rw [List.mem_singleton.mp made, numbered.toNat_next (by omega)]
      · exact .inr (by omega)

namespace Identified

variable {board : Board} {count : Nat}

/-- All rows that a load brings are new. -/
theorem le_of_mem_loadBytes (identified : board.Identified count)
    {bytes : Bytes} (left : count + recordCount bytes ≤ UInt32.size)
    {row : Row} (member : row ∈ (board.loadBytes bytes).2.rows) :
    count ≤ row.id.number.toNat := by
  unfold loadBytes at member
  unfold recordCount at left
  cases decoded : Image.decode bytes with
  | error failure =>
      rw [decoded] at member
      exact absurd member List.not_mem_nil
  | ok records =>
      rw [decoded] at member left
      have appended := List.mem_mergeSort.mp (List.mem_of_mem_take member)
      rcases mem_appendRecords identified.toNumbered.clear
        (by rw [List.length_mergeSort]; exact left) appended with
        old | fresh
      · exact absurd old List.not_mem_nil
      · exact fresh

theorem loadBytes (identified : board.Identified count) {bytes : Bytes}
    (left : count + recordCount bytes ≤ UInt32.size) :
    (board.loadBytes bytes).2.Identified (count + recordCount bytes) := by
  unfold Board.loadBytes
  unfold recordCount at left ⊢
  cases decoded : Image.decode bytes with
  | error failure => exact identified.clear
  | ok records =>
      rw [decoded] at left
      exact ⟨identified.toNumbered.ofRecords records left,
        identified.ofRecords records left⟩

theorem operate (identified : board.Identified count) {operation : Operation}
    (left : count + board.handsOut operation ≤ UInt32.size) :
    (board.operate operation).Identified
      (count + board.handsOut operation) := by
  cases operation with
  | call call =>
      cases call with
      | findOrCreate name unique => exact identified.findOrCreate name unique left
      | update id delta => exact identified.update id delta
      | rename id name => exact identified.rename id name
      | clear => exact identified.clear
      | loadBytes bytes => exact identified.loadBytes left
  | load tree path =>
      simp only [handsOut, Board.operate, load] at left ⊢
      cases content : tree.read path with
      | error fault => exact identified.clear
      | ok bytes =>
          rw [content] at left
          exact identified.loadBytes left

theorem mem_update (identified : board.Identified count) {id : RankId}
    {delta : StatBlock} {row : Row}
    (member : row ∈ (board.update id delta).2.rows) :
    ∃ old ∈ board.rows, row = updatedRow board.points id delta old := by
  have single : board.Unambiguous id :=
    List.nodup_iff_count_le_one.mp identified.distinct id
  cases found : Cursor.seek? id board.rows with
  | none =>
      have absent := Cursor.seek?_eq_none_iff.mp found
      rw [update_of_unknown delta found] at member
      exact ⟨row, member, (if_neg (absent row member)).symm⟩
  | some cursor =>
      have absent := absent_of_unambiguous found single
      rw [update_of_found delta found] at member
      have settled := (board.settledCursor delta cursor).rows_perm.mem_iff.mp
        (List.mem_of_mem_take member)
      rw [settledCursor_others delta found, settledCursor_row] at settled
      rcases List.mem_cons.mp settled with updated | other
      · refine ⟨cursor.row,
          List.mem_of_find?_eq_some (Cursor.seek?_find found), ?_⟩
        rw [updated, updatedRow, if_pos (Cursor.seek?_row found)]
      · exact ⟨row, List.mem_of_mem_eraseP other,
          (if_neg (absent row other)).symm⟩

/-- Where no row stays all rows are new. -/
theorem le_of_mem_replaced (identified : board.Identified count)
    {operation : Operation} (replaces : operation.replacesRows = true)
    (left : count + board.handsOut operation ≤ UInt32.size) {row : Row}
    (member : row ∈ (board.operate operation).rows) :
    count ≤ row.id.number.toNat := by
  cases operation with
  | call call =>
      cases call with
      | clear => exact absurd member List.not_mem_nil
      | loadBytes bytes => exact identified.le_of_mem_loadBytes left member
      | _ => contradiction
  | load tree path =>
      simp only [handsOut, Board.operate, load] at left member
      cases content : tree.read path with
      | error fault =>
          rw [content] at member
          exact absurd member List.not_mem_nil
      | ok bytes =>
          rw [content] at left member
          exact identified.le_of_mem_loadBytes left member

/-- Every row after an operation is new, or was there before and has changed as
the operation says. -/
theorem mem_operate (identified : board.Identified count)
    {operation : Operation}
    (left : count + board.handsOut operation ≤ UInt32.size) {row : Row}
    (member : row ∈ (board.operate operation).rows) :
    (∃ old ∈ board.rows, row = old.after board.points operation) ∨
      count ≤ row.id.number.toNat := by
  cases operation with
  | call call =>
      cases call with
      | findOrCreate name unique =>
          rcases mem_findOrCreate member with old | ⟨absent, fresh⟩
          · exact .inl ⟨row, old, rfl⟩
          · right
            rw [handsOut, absent, Option.isSome_none,
              if_neg Bool.false_ne_true] at left
            rw [fresh, identified.toNat_next (by omega)]
      | update id delta => exact .inl (identified.mem_update member)
      | rename id name =>
          simp only [Board.operate, perform,
            rows_rename_of_distinct identified.distinct] at member
          obtain ⟨old, present, rfl⟩ := List.mem_map.mp member
          exact .inl ⟨old, present, rfl⟩
      | clear => exact .inr (identified.le_of_mem_replaced rfl left member)
      | loadBytes bytes =>
          exact .inr (identified.le_of_mem_replaced rfl left member)
  | load tree path =>
      exact .inr (identified.le_of_mem_replaced rfl left member)

/-- An identity that has been handed out means its row as the operation leaves
it, or nothing. -/
theorem get?_operate (identified : board.Identified count)
    {operation : Operation}
    (left : count + board.handsOut operation ≤ UInt32.size) {id : RankId}
    (known : id.number.toNat < count) :
    (board.operate operation).get? id = none ∨
      ∃ row, board.get? id = some row ∧
        (board.operate operation).get? id =
          some (row.after board.points operation) := by
  have after := identified.operate left
  cases found : (board.operate operation).get? id with
  | none => exact .inl rfl
  | some row =>
      obtain ⟨member, rfl⟩ := (get?_eq_some_iff after.distinct).mp found
      rcases identified.mem_operate left member with ⟨old, present, rfl⟩ | fresh
      · rw [Row.id_after]
        exact .inr ⟨old,
          (get?_eq_some_iff identified.distinct).mpr ⟨present, rfl⟩, rfl⟩
      · omega

theorem operateAll (identified : board.Identified count)
    {operations : List Operation}
    (left : count + board.handedOut operations ≤ UInt32.size) :
    (board.operateAll operations).Identified
      (count + board.handedOut operations) := by
  induction operations generalizing board count with
  | nil => exact identified
  | cons operation rest ih =>
      rw [handedOut, ← Nat.add_assoc] at left ⊢
      exact ih (identified.operate (by omega)) left

theorem get?_operateAll (identified : board.Identified count)
    {operations : List Operation}
    (left : count + board.handedOut operations ≤ UInt32.size) {id : RankId}
    (known : id.number.toNat < count) :
    (board.operateAll operations).get? id = none ∨
      ∃ row, board.get? id = some row ∧
        (board.operateAll operations).get? id =
          some (row.afterAll board.points operations) := by
  induction operations generalizing board count with
  | nil =>
      cases found : board.get? id with
      | none => exact .inl found
      | some row => exact .inr ⟨row, rfl, found⟩
  | cons operation rest ih =>
      rw [handedOut, ← Nat.add_assoc] at left
      have room : count + board.handsOut operation ≤ UInt32.size := by omega
      rcases ih (identified.operate room) left (by omega) with
        gone | ⟨middle, between, last⟩
      · exact .inl gone
      · right
        rw [points_operate] at last
        rcases identified.get?_operate room known with
          gone | ⟨row, first, kept⟩
        · rw [gone] at between
          contradiction
        · obtain rfl := Option.some.inj (between.symm.trans kept)
          exact ⟨row, first, last⟩

/-- Once no row has stayed, no identity from before means one. -/
theorem get?_operateAll_of_replaced (identified : board.Identified count)
    {operations : List Operation}
    (left : count + board.handedOut operations ≤ UInt32.size)
    (replaced : operations.any (·.replacesRows) = true) {id : RankId}
    (known : id.number.toNat < count) :
    (board.operateAll operations).get? id = none := by
  induction operations generalizing board count with
  | nil => contradiction
  | cons operation rest ih =>
      rw [handedOut, ← Nat.add_assoc] at left
      have room : count + board.handsOut operation ≤ UInt32.size := by omega
      rw [List.any_cons, Bool.or_eq_true] at replaced
      rcases replaced with here | later
      · have gone : (board.operate operation).get? id = none := by
          refine get?_eq_none_iff.mpr ?_
          rintro row member rfl
          have fresh := identified.le_of_mem_replaced here room member
          omega
        rcases (identified.operate room).get?_operateAll left
          (by omega : id.number.toNat < _) with none | ⟨row, found, _⟩
        · exact none
        · rw [gone] at found
          contradiction
      · exact ih (identified.operate room) left later (by omega)

end Identified

/-- From an empty board, while at most 2 ^ 32 identities are handed out, rows
have identities of their own, and an identity is looked up where its row stands.
A row that stays answers to its identity as the operations have changed it.  An
identity that was handed out and means no row, or was handed out before the
board was cleared or loaded anew, never means a row again. -/
theorem identities_name_rows (capacity : Nat) (points : PointTable)
    (earlier later : List Operation) :
    let start := Board.empty capacity points
    let before := start.operateAll earlier
    let board := before.operateAll later
    start.handedOut (earlier ++ later) ≤ UInt32.size →
    (board.rows.map Row.id).Nodup ∧
    (∀ id row, board.get? id = some row ↔
      row ∈ board.rows ∧ row.id = id) ∧
    (∀ id position, board.positionOf? id = some position ↔
      ∃ row, board.rowAt? position = some row ∧ row.id = id) ∧
    (∀ id row, before.get? id = some row →
      board.get? id = none ∨
      board.get? id = some (row.afterAll points later)) ∧
    (∀ done, done <+: earlier → ∀ row ∈ (start.operateAll done).rows,
      row.id.number.toNat < start.handedOut earlier) ∧
    ∀ id, id.number.toNat < start.handedOut earlier →
      before.get? id = none ∨ later.any (·.replacesRows) = true →
      board.get? id = none ∧ board.positionOf? id = none ∧
      (∀ name, board.rename? id name = none) ∧
      ∀ delta, board.update id delta = (none, board) := by
  intro start before board left
  rw [handedOut_append] at left
  have empty : start.Identified 0 := identified_empty capacity points
  have identified : before.Identified (0 + start.handedOut earlier) :=
    empty.operateAll (by omega)
  rw [Nat.zero_add] at identified
  have last := (identified.operateAll left).distinct
  have known {id : RankId} (given : id.number.toNat < start.handedOut earlier) :
      board.get? id = none ∨ ∃ row, before.get? id = some row ∧
        board.get? id = some (row.afterAll before.points later) :=
    identified.get?_operateAll left given
  have samePoints : before.points = points := points_operateAll start earlier
  refine ⟨last, fun id row => get?_eq_some_iff last,
    fun id position => positionOf?_eq_some_iff last, ?_, ?_, ?_⟩
  · intro id row found
    obtain ⟨member, rfl⟩ := (get?_eq_some_iff identified.distinct).mp found
    rcases known (identified.below row member) with
      gone | ⟨same, here, kept⟩
    · exact .inl gone
    · obtain rfl := Option.some.inj (found.symm.trans here)
      rw [samePoints] at kept
      exact .inr kept
  · rintro done ⟨rest, rfl⟩ row member
    rw [handedOut_append] at left ⊢
    have room : 0 + start.handedOut done ≤ UInt32.size := by omega
    have below := (empty.operateAll room).below row member
    omega
  · intro id given lost
    have goneNow : board.get? id = none := by
      rcases lost with gone | replaced
      · rcases known given with none | ⟨row, here, _⟩
        · exact none
        · rw [gone] at here
          contradiction
      · exact identified.get?_operateAll_of_replaced left replaced given
    exact ⟨goneNow, answers_of_get?_eq_none goneNow⟩

/-- One row is lost to a load that fails and one to a better row.  That one is
renamed and answers to its identity; the other two identities mean nothing, also
after the names have come back. -/
theorem identities_after_losses :
    let zoe : RankId := { number := 0 }
    let ann : RankId := { number := 1 }
    let bob : RankId := { number := 2 }
    let earlier : List Operation :=
      [.call (.findOrCreate "zoe" none),
        .load .empty { text := "missing.dat" },
        .call (.findOrCreate "ann" none),
        .call (.update ann (StatBlock.zero.award 5)),
        .call (.findOrCreate "bob" none),
        .call (.update bob (StatBlock.zero.award 9))]
    let later : List Operation :=
      [.call (.rename bob "zoe"), .call (.findOrCreate "ann" none),
        .call (.update bob (StatBlock.zero.award 1))]
    let start := Board.empty 1 PointTable.blank
    let before := start.operateAll earlier
    let board := before.operateAll later
    start.handedOut (earlier ++ later) = 4 ∧
    (∃ row, before.get? bob = some row ∧
      board.get? bob = some (row.afterAll PointTable.blank later)) ∧
    board.get? zoe = none ∧ board.get? ann = none ∧
    (board.rename? ann "ann" = none ∧
      board.update zoe StatBlock.zero = (none, board)) := by
  intro zoe ann bob earlier later start before board
  have left : start.handedOut (earlier ++ later) = 4 := by decide
  have given : start.handedOut earlier = 3 := by decide
  have lost : before.get? zoe = none ∧ before.get? ann = none := by decide
  have stays : (before.get? bob).isSome ∧ (board.get? bob).isSome := by decide
  obtain ⟨_, _, _, keeps, _, forgets⟩ :=
    identities_name_rows 1 PointTable.blank earlier later
      (by rw [left]; decide)
  obtain ⟨row, found⟩ := Option.isSome_iff_exists.mp stays.1
  have kept : board.get? bob =
      some (row.afterAll PointTable.blank later) := by
    rcases keeps bob row found with gone | kept
    · rw [gone] at stays
      exact absurd stays.2 Bool.false_ne_true
    · exact kept
  have noZoe := forgets zoe (by rw [given]; decide) (.inl lost.1)
  have noAnn := forgets ann (by rw [given]; decide) (.inl lost.2)
  exact ⟨left, ⟨row, found, kept⟩, noZoe.1, noAnn.1, noAnn.2.2.1 "ann",
    noZoe.2.2.2 StatBlock.zero⟩

end Board

end Fragboard.Rank
