import Fragboard.Proofs.Rank.ReusedIdentities
import Fragboard.Proofs.Rank.StableIdentities

/-!
# The row of a key

`Board.findOrCreate` looks for a key before it makes a row for it.  So keys stay
apart, the row that it names answers to the key, and asking again, in any case
of letters, finds the same row and changes nothing.

Rows beyond the capacity are dropped before a row is made, so that a board never
holds more than one row too many.  An update drops that one as well, but only if
it has a row to update: with an unknown identity it leaves the board as it is.

Identities are words and come round.  After 2 ^ 32 rows a new one may be given
the identity of a row that is still there, and a look-up finds that one.
-/

namespace Fragboard.Rank

namespace Board

section Creation

variable {board : Board} {name : String} {unique : Option String}

theorem findOrCreate_of_found {id : RankId}
    (found : board.find? name unique = some id) :
    board.findOrCreate name unique = (id, board) := by
  simp only [findOrCreate, found]

/-- The row that is named answers to the key. -/
theorem exists_answering (board : Board) (name : String)
    (unique : Option String) :
    ∃ row ∈ (board.findOrCreate name unique).2.rows,
      row.id = (board.findOrCreate name unique).1 ∧
      row.matchesKey name unique = true := by
  cases found : board.find? name unique with
  | some id =>
      obtain ⟨row, first, named⟩ := Option.map_eq_some_iff.mp found
      have answers := List.find?_some first
      rw [findOrCreate_of_found found]
      exact ⟨row, List.mem_of_find?_eq_some first, named, answers⟩
  | none =>
      obtain ⟨fresh, named, key, rows⟩ := exists_fresh found
      obtain ⟨sameName, sameUnique⟩ := Prod.mk.inj key
      have here : (board.findOrCreate name unique).1 =
          { number := board.nextId } := by
        simp only [findOrCreate, found]
      refine ⟨fresh, ?_, named.trans here.symm, ?_⟩
      · rw [rows]
        exact List.mem_append_right _ (List.mem_singleton_self fresh)
      · apply Row.matchesKey_iff.mpr
        refine ⟨sameName, ?_⟩
        intro asked given
        rw [sameUnique, Option.mem_def.mp given, Option.getD_some]

/-- The key finds the row that was named. -/
theorem find?_findOrCreate (board : Board) (name : String)
    (unique : Option String) :
    (board.findOrCreate name unique).2.find? name unique =
      some (board.findOrCreate name unique).1 := by
  cases found : board.find? name unique with
  | some id =>
      rw [findOrCreate_of_found found]
      exact found
  | none =>
      obtain ⟨row, member, named, answers⟩ :=
        board.exists_answering name unique
      obtain ⟨fresh, _, _, rows⟩ := exists_fresh found
      rw [find?, Option.map_eq_none_iff] at found
      have silent : ∀ kept ∈ board.rows.take board.capacity,
          ¬kept.matchesKey name unique = true := fun kept old =>
        List.find?_eq_none.mp found kept (List.mem_of_mem_take old)
      rw [rows] at member
      obtain rfl : row = fresh := by
        rcases List.mem_append.mp member with old | last
        · exact absurd answers (silent row old)
        · exact List.mem_singleton.mp last
      rw [← named, find?, rows, List.find?_append,
        List.find?_eq_none.mpr silent, Option.none_or,
        List.find?_singleton, if_pos answers, Option.map_some]

theorem find?_of_recased (board : Board) {recased : String}
    (same : foldCase recased = foldCase name) :
    board.find? recased unique = board.find? name unique := by
  simp only [find?, Row.matchesKey, same]

/-- Asking for the key again, in any case of letters, changes nothing. -/
theorem findOrCreate_again (board : Board) {recased : String}
    (same : foldCase recased = foldCase name) :
    (board.findOrCreate name unique).2.findOrCreate recased unique =
      board.findOrCreate name unique := by
  have found := board.find?_findOrCreate name unique
  rw [← find?_of_recased _ same] at found
  exact findOrCreate_of_found found

end Creation

/-- A call that looks for the key of its row first, or makes no row. -/
def Call.keepsKeys : Call → Bool
  | .findOrCreate _ _ | .update _ _ | .clear => true
  | .rename _ _ | .loadBytes _ => false

theorem oneRowPerKey_run {board : Board} (distinct : OneRowPerKey board.rows)
    {calls : List Call} (keep : ∀ call ∈ calls, call.keepsKeys = true) :
    OneRowPerKey (board.run calls).rows := by
  induction calls generalizing board with
  | nil => exact distinct
  | cons call rest ih =>
      obtain ⟨first, later⟩ := List.forall_mem_cons.mp keep
      apply ih _ later
      cases call with
      | findOrCreate name unique =>
          exact oneRowPerKey_findOrCreate distinct name unique
      | update id delta => exact oneRowPerKey_update distinct id delta
      | clear => exact List.nodup_nil
      | rename id name => contradiction
      | loadBytes bytes => contradiction

theorem length_update_le_length (board : Board) (id : RankId)
    (delta : StatBlock) :
    (board.update id delta).2.rows.length ≤ board.rows.length := by
  cases found : Cursor.seek? id board.rows with
  | none => rw [update_of_unknown delta found]
  | some cursor =>
      have before := cursor.rows_perm.length_eq
      have after := (board.settledCursor delta cursor).rows_perm.length_eq
      rw [List.length_cons, Cursor.seek?_rows found,
        Cursor.seek?_others found] at before
      rw [List.length_cons, settledCursor_others delta found, others] at after
      rw [update_of_found delta found, before, ← after]
      exact List.length_take_le' _ _

/-- Every call leaves one row too many at most. -/
theorem length_perform_le {board : Board}
    (fits : board.rows.length ≤ board.capacity + 1) (call : Call) :
    (board.perform call).rows.length ≤ board.capacity + 1 := by
  cases call with
  | findOrCreate name unique =>
      cases found : board.find? name unique with
      | some id =>
          rw [perform, findOrCreate_of_found found]
          exact fits
      | none =>
          obtain ⟨fresh, _, _, rows⟩ := exists_fresh found
          have kept := List.length_take_le board.capacity board.rows
          rw [perform, rows, List.length_append, List.length_singleton]
          omega
  | update id delta =>
      exact (board.length_update_le_length id delta).trans fits
  | rename id name =>
      rw [perform, length_rename]
      exact fits
  | clear => exact Nat.zero_le _
  | loadBytes bytes =>
      exact Nat.le_succ_of_le (board.length_loadBytes_le bytes)

theorem length_run_le {board : Board}
    (fits : board.rows.length ≤ board.capacity + 1) (calls : List Call) :
    (board.run calls).rows.length ≤ board.capacity + 1 := by
  induction calls generalizing board with
  | nil => exact fits
  | cons call rest ih =>
      have settings := board.sameSettings_perform call
      have first := length_perform_le fits call
      rw [← settings.capacity] at first
      have later := ih first
      rw [settings.capacity] at later
      exact later

/-- Calls are operations, and hand out identities as such. -/
theorem operateAll_calls (board : Board) (calls : List Call) :
    board.operateAll (calls.map .call) = board.run calls :=
  List.foldl_map

/-- Find-or-create, update and clear, from an empty board: no two rows have one
key, there is one row too many at most, and none after an update of a row.  The
row that a key is given answers to the key.  A key that was found changes
nothing, and neither does asking again in other letters.  The identity returned
is looked up where that row is if no other row has it, which is certain while at
most 2 ^ 32 rows have been made. -/
theorem keys_name_usable_rows (capacity : Nat) (points : PointTable)
    {calls : List Call} (keep : ∀ call ∈ calls, call.keepsKeys = true) :
    let start := Board.empty capacity points
    let board := start.run calls
    OneRowPerKey board.rows ∧
    board.rows.length ≤ capacity + 1 ∧
    (∀ id delta, (∃ row ∈ board.rows, row.id = id) →
      (board.update id delta).2.rows.length ≤ capacity) ∧
    ∀ name unique,
      let id := (board.findOrCreate name unique).1
      let after := (board.findOrCreate name unique).2
      (∀ found, board.find? name unique = some found →
        id = found ∧ after = board) ∧
      (∃ row ∈ after.rows, row.id = id ∧
        row.matchesKey name unique = true ∧ (after.get? id).isSome = true ∧
        (after.Unambiguous id → after.get? id = some row)) ∧
      (start.handedOut
          ((calls ++ [Call.findOrCreate name unique]).map Operation.call) ≤
        UInt32.size → after.Unambiguous id) ∧
      ∀ recased, foldCase recased = foldCase name →
        after.findOrCreate recased unique = (id, after) := by
  intro start board
  have settings : start.SameSettings board := start.sameSettings_run calls
  have room : board.capacity = capacity := settings.capacity
  have empty : OneRowPerKey start.rows := List.nodup_nil
  refine ⟨oneRowPerKey_run empty keep, length_run_le (Nat.zero_le _) calls,
    ?_, ?_⟩
  · intro id delta present
    rw [← room]
    exact length_update_le present delta
  · intro name unique id after
    refine ⟨?_, ?_, ?_, fun recased same => board.findOrCreate_again same⟩
    · intro found present
      exact Prod.mk.inj (findOrCreate_of_found present)
    · obtain ⟨row, member, named, answers⟩ :
          ∃ row ∈ after.rows, row.id = id ∧ row.matchesKey name unique = true :=
        board.exists_answering name unique
      refine ⟨row, member, named, answers, ?_, ?_⟩
      · exact List.find?_isSome.mpr ⟨row, member, beq_iff_eq.mpr named⟩
      · intro unambiguous
        rw [← named] at unambiguous ⊢
        exact get?_of_unambiguous member unambiguous
    · intro left
      have identified := (identified_empty capacity points).operateAll
        (by rwa [Nat.zero_add])
      have made : start.run (calls ++ [.findOrCreate name unique]) = after := by
        rw [run, List.foldl_append]
        rfl
      rw [operateAll_calls, made] at identified
      exact List.nodup_iff_count_le_one.mp identified.distinct id

/-- Ann's second account comes to a board that is full and has bob waiting. -/
theorem row_made_beside_waiting_row :
    let calls : List Call :=
      [.findOrCreate "Ann" (some "id:7"),
        .update { number := 0 } (StatBlock.zero.award 5),
        .findOrCreate "bob" none]
    let board := (Board.empty 1 PointTable.blank).run calls
    let made := board.findOrCreate "ann" (some "id:8")
    (∀ call ∈ calls, call.keepsKeys = true) ∧ board.rows.length = 2 ∧
    made.1 = { number := 2 } ∧
    (∃ row, made.2.get? { number := 2 } = some row ∧
      row.matchesKey "ann" (some "id:8") = true) ∧
    made.2.findOrCreate "ANN" (some "id:8") = made ∧
    OneRowPerKey made.2.rows := by
  intro calls board made
  have keep : ∀ call ∈ calls, call.keepsKeys = true := by decide
  obtain ⟨_, _, _, answers⟩ :=
    keys_name_usable_rows 1 PointTable.blank keep
  obtain ⟨_, ⟨row, _, _, matching, _, found⟩, certain, again⟩ :=
    answers "ann" (some "id:8")
  have here : made.1 = { number := 2 } := by decide
  have named := found (certain (by decide))
  rw [here] at named
  exact ⟨keep, by decide, here, ⟨row, named, matching⟩, again "ANN" (by decide),
    by decide⟩

theorem keepsKeys_turns (count : Nat) :
    ∀ call ∈ turns count, call.keepsKeys = true := by
  intro call member
  obtain ⟨pair, repeated, taken⟩ := List.mem_flatten.mp member
  obtain rfl := List.eq_of_mem_replicate repeated
  rcases List.mem_cons.mp taken with rfl | last
  · rfl
  · rw [List.mem_singleton.mp last]
    rfl

/-- A board for one row has cat waiting below ann when bob, who was dropped, is
updated: both rows stay.  And when bob and cat have been made 2 ^ 31 times each,
cat has the identity of ann, and looking it up gives ann. -/
theorem overflow_kept_and_identity_reused :
    let calls : List Call :=
      [.findOrCreate "ann" none,
        .update { number := 0 } (StatBlock.zero.award 5),
        .findOrCreate "bob" none,
        .update { number := 1 } StatBlock.zero,
        .findOrCreate "cat" none]
    let after := ((Board.empty 1 PointTable.blank).run calls).perform
      (.update { number := 1 } StatBlock.zero)
    let long : List Call := .findOrCreate "ann" none :: turns (2 ^ 31)
    let cat := ((Board.empty 1 PointTable.blank).run long).findOrCreate "cat"
      none
    ((∀ call ∈ calls, call.keepsKeys = true) ∧ ¬after.rows.length ≤ 1) ∧
    (∀ call ∈ long, call.keepsKeys = true) ∧
    ∃ row, cat.2.get? cat.1 = some row ∧ row.matchesKey "cat" none = false := by
  intro calls after long cat
  refine ⟨⟨by decide, by decide⟩, ?_, ?_⟩
  · exact List.forall_mem_cons.mpr ⟨rfl, keepsKeys_turns _⟩
  · have whole : (Board.empty 1 PointTable.blank).run long =
        overfull PointTable.blank [freshRow PointTable.blank "ann" 0] "cat" 0 :=
      run_turns_after_ann PointTable.blank
    simp only [cat, whole]
    exact ⟨_, rfl, rfl⟩

end Board

end Fragboard.Rank
