import Fragboard.Proofs.Match.KeyedRows
import Fragboard.Proofs.Match.MatchLeaderboard

/-!
# The row of a player who takes another name

Under the key of name and disambiguator a rename goes to the row that was noted
when the player's life was last entered, while a look-up goes by the key.  The
player is found in the same row afterwards exactly if that row was the noted one
and no row above it has the new key (`Session.rename_keeps_row_iff`).
-/

namespace Fragboard.Match

open Rank (Board RankId Row foldCase)

/-- The row after the noted one has been given another name. -/
def renamedRow (noted : Option RankId) (name : String) (row : Row) : Row :=
  if noted = some row.id then { row with name := name } else row

section RenamedRow

variable (noted : Option RankId) (name : String) (row : Row)

@[simp] theorem renamedRow_id : (renamedRow noted name row).id = row.id := by
  unfold renamedRow
  split <;> rfl

@[simp] theorem renamedRow_unique :
    (renamedRow noted name row).unique = row.unique := by
  unfold renamedRow
  split <;> rfl

@[simp] theorem renamedRow_stats :
    (renamedRow noted name row).stats = row.stats := by
  unfold renamedRow
  split <;> rfl

theorem renamedRow_name_iff :
    (renamedRow noted name row).name = name ↔
      noted = some row.id ∨ row.name = name := by
  unfold renamedRow
  split
  · next same => simp [same]
  · next other => simp [other]

theorem matchesKey_renamedRow_iff (unique : String) :
    (renamedRow noted name row).matchesKey name (some unique) = true ↔
      row.unique = unique ∧
        (noted = some row.id ∨ foldCase row.name = foldCase name) := by
  rw [Row.matchesKey_iff, renamedRow_unique]
  unfold renamedRow
  split
  · next same => simp [same]
  · next other => simp [other, and_comm]

end RenamedRow

namespace Session

variable {World : Type}

/-- With identities that tell rows apart, the row of a player is the first one
that answers to the player's key. -/
theorem rankStats_eq_some_iff {session : Session World}
    (distinct : (session.board.rows.map Row.id).Nodup) {slot : Slot}
    {row : Row} {position : Nat} :
    session.rankStats slot = some (row, position) ↔
      (session.player slot).connected = true ∧
      ∃ above below, session.board.rows = above ++ row :: below ∧
        position = above.length + 1 ∧
        row.matchesKey (session.player slot).name (session.rankUnique slot) =
          true ∧
        ∀ higher ∈ above, higher.matchesKey (session.player slot).name
          (session.rankUnique slot) = false := by
  cases connected : (session.player slot).connected with
  | false => simp [rankStats, connected]
  | true =>
      simp only [rankStats, connected, if_true, true_and]
      constructor
      · intro ranked
        obtain ⟨id, found, ranked⟩ := Option.bind_eq_some_iff.mp ranked
        obtain ⟨got, gotten, ranked⟩ := Option.bind_eq_some_iff.mp ranked
        obtain ⟨place, placed, same⟩ := Option.bind_eq_some_iff.mp ranked
        obtain ⟨rfl, rfl⟩ := Prod.mk.inj (Option.some.inj same)
        obtain ⟨first, sought, rfl⟩ := Option.map_eq_some_iff.mp found
        obtain ⟨answers, above, below, rows, passed⟩ :=
          List.find?_eq_some_iff_append.mp sought
        rw [Board.get?_of_distinct distinct rows] at gotten
        rw [Board.positionOf?_of_distinct distinct rows] at placed
        obtain rfl := Option.some.inj gotten
        obtain rfl := Option.some.inj placed
        refine ⟨above, below, rows, rfl, answers, ?_⟩
        simpa using passed
      · rintro ⟨above, below, rows, rfl, answers, passed⟩
        have first : session.board.find? (session.player slot).name
            (session.rankUnique slot) = some row.id := by
          apply Option.map_eq_some_iff.mpr
          refine ⟨row, ?_, rfl⟩
          apply List.find?_eq_some_iff_append.mpr
          refine ⟨answers, above, below, rows, ?_⟩
          simpa using passed
        rw [first, Option.bind_eq_bind, Option.bind_some,
          Board.get?_of_distinct distinct rows]
        simp [Board.positionOf?_of_distinct distinct rows]

theorem config_rename (session : Session World) (slot : Slot)
    (name : String) : (session.rename slot name).config = session.config := by
  unfold rename
  dsimp only
  split
  · rfl
  · cases session.config.rankBy <;> rfl

section Rename

variable {session : Session World} {slot : Slot} {name : String}
  (keyed : session.config.rankBy = .unique)
  (connected : (session.player slot).connected = true)
  (isNew : name ≠ (session.player slot).name)

include keyed connected isNew

theorem player_rename :
    (session.rename slot name).player slot =
      { session.player slot with name := name } := by
  simp [rename, connected, isNew.symm, keyed]

theorem rankUnique_rename :
    (session.rename slot name).rankUnique slot =
      some (session.player slot).unique := by
  rw [rankUnique, config_rename, keyed, player_rename keyed connected isNew]

theorem rows_rename (distinct : (session.board.rows.map Row.id).Nodup) :
    (session.rename slot name).board.rows =
      session.board.rows.map
        (renamedRow (session.player slot).rankId name) := by
  cases noted : (session.player slot).rankId with
  | none =>
      have kept : renamedRow none name = fun row => row := by
        funext row
        exact if_neg (Option.some_ne_none row.id).symm
      simp [rename, connected, isNew.symm, keyed, noted, kept]
  | some id =>
      have board : (session.rename slot name).board =
          (session.board.rename? id name).getD session.board := by
        simp [rename, connected, isNew.symm, keyed, noted]
      rw [board, Board.rows_rename_of_distinct distinct]
      apply List.map_congr_left
      intro row _
      simp only [renamedRow, Option.some.injEq, eq_comm]

/-- The player is found in the same row under the new name exactly if the row
was the noted one, or has that name, and no row above it has the new key. -/
theorem rename_keeps_row_iff_of_distinct
    (distinct : (session.board.rows.map Row.id).Nodup) {row : Row}
    {position : Nat}
    (ranked : session.rankStats slot = some (row, position)) :
    (∃ after, (session.rename slot name).rankStats slot =
        some (after, position) ∧
      after.id = row.id ∧ after.stats = row.stats ∧ after.name = name) ↔
    ((session.player slot).rankId = some row.id ∨ row.name = name) ∧
      ∀ higher ∈ session.board.rows.take (position - 1),
        higher.unique = (session.player slot).unique →
          (session.player slot).rankId ≠ some higher.id ∧
            foldCase higher.name ≠ foldCase name := by
  obtain ⟨_, above, below, rows, rfl, answers, _⟩ :=
    (rankStats_eq_some_iff distinct).mp ranked
  let touched := renamedRow (session.player slot).rankId name
  have own : row.unique = (session.player slot).unique := by
    rw [rankUnique, keyed] at answers
    exact (Row.matchesKey_iff.mp answers).2 _ rfl
  have top : session.board.rows.take (above.length + 1 - 1) = above := by
    rw [rows, Nat.add_sub_cancel, List.take_left]
  have renamedRows : (session.rename slot name).board.rows =
      above.map touched ++ touched row :: below.map touched := by
    rw [rows_rename keyed connected isNew distinct, rows, List.map_append,
      List.map_cons]
  have ids : ((session.rename slot name).board.rows.map Row.id).Nodup := by
    have same : Row.id ∘ touched = Row.id := by
      funext row
      exact renamedRow_id _ _ row
    rw [rows_rename keyed connected isNew distinct, List.map_map, same]
    exact distinct
  have passed (higher : Row) :
      (touched higher).matchesKey name
          (some (session.player slot).unique) = false ↔
        (higher.unique = (session.player slot).unique →
          (session.player slot).rankId ≠ some higher.id ∧
            foldCase higher.name ≠ foldCase name) := by
    rw [← Bool.not_eq_true, matchesKey_renamedRow_iff]
    tauto
  simp only [rankStats_eq_some_iff ids,
    player_rename keyed connected isNew,
    rankUnique_rename keyed connected isNew, top]
  constructor
  · rintro ⟨after, ⟨_, before, under, split, length, _, clear⟩, _, _, named⟩
    have sameLength : (above.map touched).length = before.length := by
      rw [List.length_map]
      omega
    obtain ⟨rfl, rest⟩ :=
      List.append_inj (renamedRows.symm.trans split) sameLength
    obtain ⟨rfl, _⟩ := List.cons.inj rest
    refine ⟨(renamedRow_name_iff _ _ row).mp named, ?_⟩
    intro higher member
    exact (passed higher).mp (clear _ (List.mem_map_of_mem member))
  · rintro ⟨kept, clear⟩
    have named : (touched row).name = name :=
      (renamedRow_name_iff _ _ row).mpr kept
    have unique : (touched row).unique = (session.player slot).unique :=
      (renamedRow_unique _ _ row).trans own
    refine ⟨touched row, ⟨connected, above.map touched, below.map touched,
      renamedRows, by rw [List.length_map], ?_, ?_⟩, renamedRow_id _ _ row,
      renamedRow_stats _ _ row, named⟩
    · apply Row.matchesKey_iff.mpr
      refine ⟨by rw [named], ?_⟩
      intro asked given
      exact unique.trans (Option.some.inj given)
    · intro higher member
      obtain ⟨old, oldMember, rfl⟩ := List.mem_map.mp member
      exact (passed old).mpr (clear old oldMember)

end Rename

variable [GameWorld World]

theorem identified_run (session : Session World) {count : Nat}
    (identified : session.board.Identified count)
    (calls : List (Call World))
    (left : count + session.rowsCreated calls ≤ UInt32.size) :
    (session.run calls).board.Identified
      (count + session.rowsCreated calls) := by
  induction calls generalizing session count with
  | nil => exact identified
  | cons call rest ih =>
      rw [rowsCreated, ← Nat.add_assoc] at left ⊢
      have first := identified.changes (session.boardChanges call) (by omega)
      rw [← session.board_perform call] at first
      exact ih _ first left

/-- A match goes by name and disambiguator, and a player who is found in a row
takes another name.  The player is found in that row, now under the new name and
otherwise as it was, exactly if it is the row that was noted for the player, or
has the new name already, and no row above it gets or has the new key. -/
theorem rename_keeps_row_iff (config : Config) (world : World)
    (points : PointTable) (calls : List (Call World)) (slot : Slot)
    (name : String) (row : Row) (position : Nat) :
    let start := Session.new config world points
    let session := start.run calls
    let state := session.player slot
    config.rankBy = .unique → start.rowsCreated calls ≤ UInt32.size →
    name ≠ state.name → session.rankStats slot = some (row, position) →
    ((∃ after, (session.rename slot name).rankStats slot =
        some (after, position) ∧
      after.id = row.id ∧ after.stats = row.stats ∧ after.name = name) ↔
    (state.rankId = some row.id ∨ row.name = name) ∧
      ∀ higher ∈ session.board.rows.take (position - 1),
        higher.unique = state.unique →
          state.rankId ≠ some higher.id ∧
            foldCase higher.name ≠ foldCase name) := by
  intro start session state keyed left isNew ranked
  have keyedNow : session.config.rankBy = .unique := by
    rw [rankBy_run]
    exact keyed
  have connected : state.connected = true := by
    by_contra gone
    simp [rankStats, state, gone] at ranked
  have identified := start.identified_run
    (Board.identified_empty config.rankCapacity points) calls
    (by rwa [Nat.zero_add])
  exact rename_keeps_row_iff_of_distinct keyedNow connected isNew
    identified.distinct ranked

/-- A life was entered since the player connected, so the row is the noted one
and goes along with the new name. -/
theorem row_of_noted_player_kept :
    let ann : Slot := { index := 0 }
    let other : Slot := { index := 1 }
    let body : EntityHandle := { index := 1, generation := 0 }
    let config : Config := { rankBy := .unique }
    let calls : List (Call ScriptedWorld) :=
      [.register "ObjScore" 1, .register "ResetHUD" 2,
        .changeWorld fun world => (world.join ann 1).2,
        .connect ann "ann" "id:7", .connect other "bob" "id:8",
        .messageBegin 1 none, .messageField (.int 1), .messageField (.int 3),
        .messageEnd, .messageBegin 1 none, .messageField (.int 2),
        .messageField (.int 5), .messageEnd, .disconnect other,
        .messageBegin 2 (some body), .messageEnd,
        .changeWorld (·.advance 1), .think ann]
    let start := Session.new config ScriptedWorld.empty PointTable.blank
    let session := start.run calls
    start.rowsCreated calls = 2 ∧ "bob" ≠ (session.player ann).name ∧
    ∃ row, session.rankStats ann = some (row, 2) ∧
      ∃ after, (session.rename ann "bob").rankStats ann = some (after, 2) ∧
        after.id = row.id ∧ after.stats = row.stats ∧ after.name = "bob" := by
  intro ann other body config calls
  have facts :
      let start := Session.new config ScriptedWorld.empty PointTable.blank
      let session := start.run calls
      start.rowsCreated calls = 2 ∧ "bob" ≠ (session.player ann).name ∧
      (session.rankStats ann).map Prod.snd = some 2 ∧
      (session.player ann).rankId =
        (session.rankStats ann).map (fun found => found.1.id) ∧
      ∀ higher ∈ session.board.rows.take 1,
        higher.unique ≠ (session.player ann).unique := by
    decide +kernel
  have keeps := rename_keeps_row_iff config ScriptedWorld.empty
    PointTable.blank calls ann "bob"
  dsimp only at facts keeps ⊢
  generalize (Session.new config ScriptedWorld.empty PointTable.blank).run
    calls = session at facts keeps ⊢
  obtain ⟨created, isNew, second, noted, alone⟩ := facts
  obtain ⟨⟨row, position⟩, ranked, rfl⟩ := Option.map_eq_some_iff.mp second
  rw [ranked] at noted
  have left : 2 ≤ UInt32.size := by decide
  have kept := keeps row 2 rfl (created ▸ left) isNew ranked
  refine ⟨created, isNew, row, ranked, kept.mpr ⟨.inl noted, ?_⟩⟩
  intro higher member same
  exact absurd same (alone higher member)

/-- A player comes back, is found in the row of the first stay, takes another
name and is not found any more: no row was noted for this stay. -/
theorem row_of_returned_player_lost :
    let ann : Slot := { index := 0 }
    let config : Config := { rankBy := .unique }
    let calls : List (Call ScriptedWorld) :=
      [.register "ObjScore" 1, .connect ann "ann" "id:7",
        .messageBegin 1 none, .messageField (.int 1), .messageField (.int 5),
        .messageEnd, .disconnect ann, .connect ann "ann" "id:7"]
    let start := Session.new config ScriptedWorld.empty PointTable.blank
    let session := start.run calls
    (session.player ann).connected = true ∧
    (session.rankStats ann).map Prod.snd = some 1 ∧
    (session.rename ann "bob").rankStats ann = none := by
  decide +kernel

end Session

end Fragboard.Match
