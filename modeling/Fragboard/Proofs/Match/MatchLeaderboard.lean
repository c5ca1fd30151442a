import Fragboard.Match.ScriptedWorld
import Fragboard.Proofs.Match.ScoredVisits
import Fragboard.Proofs.Rank.ReusedIdentities

/-!
# The leaderboard of a match

Inside a call the board may be out of order and may hold one row too many: a
fresh row is appended below rows of negative score.  Between calls it is a
leaderboard, whatever the settings, the point table and the files that were
loaded.  Its order lasts as long as the identities of rows do: once these have
come round, a life may be merged into the row of another player.
-/

namespace Fragboard.Match

open Rank (Board Descending)

namespace Session

variable {World : Type} [GameWorld World]

def rowsCreated (session : Session World) : List (Call World) → Nat
  | [] => 0
  | call :: rest =>
    session.board.created (session.boardChanges call) +
      (session.perform call).rowsCreated rest

theorem ranked_perform {session : Session World} {count : Nat}
    (ranked : session.board.Ranked count) (call : Call World) :
    (session.perform call).board.Ranked
      (count + session.board.created (session.boardChanges call)) := by
  rw [session.board_perform call]
  exact ranked.changes (session.boardChanges call)

theorem ranked_run (session : Session World) {count : Nat}
    (ranked : session.board.Ranked count) (calls : List (Call World)) :
    (session.run calls).board.Ranked (count + session.rowsCreated calls) := by
  induction calls generalizing session count with
  | nil => exact ranked
  | cons call rest ih =>
      have later := ih (session.perform call) (ranked_perform ranked call)
      rw [Nat.add_assoc] at later
      exact later

theorem sameSettings_run (session : Session World)
    (calls : List (Call World)) :
    session.board.SameSettings (session.run calls).board := by
  induction calls generalizing session with
  | nil => exact .refl session.board
  | cons call rest ih =>
      have first := session.board.sameSettings_changes
        (session.boardChanges call)
      rw [← session.board_perform call] at first
      exact first.trans (ih (session.perform call))

/-- After any calls, every row has the score that the table gives it, no more
rows are kept than the settings admit, and scores never rise down the board.
The last holds as long as the identities of rows, which are words, last. -/
theorem leaderboard_after_calls (config : Config) (world : World)
    (points : PointTable) (calls : List (Call World)) :
    let start := Session.new config world points
    let board := (start.run calls).board
    (∀ row ∈ board.rows, row.score = points.score row.stats) ∧
    board.rows.length ≤ config.rankCapacity ∧
    (start.rowsCreated calls ≤ UInt32.size → Descending board.rows) := by
  intro start board
  have settings : (Board.empty config.rankCapacity points).SameSettings board :=
    start.sameSettings_run calls
  have ranked : board.Ranked (0 + start.rowsCreated calls) :=
    start.ranked_run (Board.ranked_empty config.rankCapacity points) calls
  rw [Nat.zero_add] at ranked
  refine ⟨?_, ?_, ?_⟩
  · intro row member
    have same : board.points = points := settings.points
    rw [ranked.scored row member, same]
  · have same : board.capacity = config.rankCapacity := settings.capacity
    rw [← same]
    exact ranked.fits
  · intro left
    exact (ranked.ordered left).2

/-- A player ends a life with a debit, then another ends one with a credit. -/
theorem leaderboard_after_debit :
    let calls : List (Call ScriptedWorld) :=
      [.register "ObjScore" 1, .connect { index := 0 } "a" "",
        .connect { index := 1 } "b" "",
        .messageBegin 1 none, .messageField (.int 1),
        .messageField (.int (-5)), .messageEnd,
        .messageBegin 1 none, .messageField (.int 2),
        .messageField (.int 3), .messageEnd,
        .disconnect { index := 0 }, .disconnect { index := 1 }]
    (Session.new {} ScriptedWorld.empty PointTable.blank).rowsCreated calls =
      2 ∧
    ((Session.new {} ScriptedWorld.empty PointTable.blank).run
      calls).board.rows.map Rank.Row.score = [3, -5] ∧
    Descending ((Session.new {} ScriptedWorld.empty PointTable.blank).run
      calls).board.rows := by
  intro calls
  have created : (Session.new {} ScriptedWorld.empty
      PointTable.blank).rowsCreated calls = 2 := by decide +kernel
  refine ⟨created, by decide +kernel, ?_⟩
  apply (leaderboard_after_calls {} ScriptedWorld.empty PointTable.blank
    calls).2.2
  rw [created]
  decide

/-- Ann and bob fill the board with debits, and cat comes with a greater one
until all identities have been handed out.  The next row that cat gets has the
identity of ann's, so the life is merged into ann's row and the fresh one stays,
below bob's and with a higher score. -/
theorem disorder_after_all_identities :
    let config : Config := { rankCapacity := 2 }
    let calls : List (Call ScriptedWorld) :=
      .register "ObjScore" 1 ::
        visits (("ann", -5) :: ("bob", -6) ::
          List.replicate (2 ^ 32 - 1) ("cat", -7))
    let board := ((Session.new config ScriptedWorld.empty
      PointTable.blank).run calls).board
    board.rows.map Rank.Row.score = [-6, 0] ∧ ¬Descending board.rows := by
  intro config calls board
  let cat := scoredLife ("cat", -7)
  let opened := ((Board.empty 2 PointTable.blank).credit
    (scoredLife ("ann", -5))).credit (scoredLife ("bob", -6))
  have absent : ∀ row ∈ opened.rows,
      Rank.foldCase row.name ≠ Rank.foldCase cat.1 := by decide +kernel
  have full : opened.rows.length = opened.capacity := by decide +kernel
  have sorted : Descending opened.rows :=
    Rank.descending_iff_scores.mpr (by decide +kernel)
  have lowest : ∀ row ∈ opened.rows,
      opened.points.score (StatBlock.zero.merge cat.2) ≤ row.score := by
    decide +kernel
  have numbered : opened.Numbered 2 := ⟨by decide +kernel, by decide +kernel⟩
  have used : 2 + (UInt32.size - 2) = UInt32.size := by decide
  have count : 2 ^ 32 - 1 = UInt32.size - 2 + 1 := by decide
  have credited : board = opened.credits (List.replicate (2 ^ 32 - 1) cat) := by
    simp only [board, calls]
    rw [run_visits_of_new rfl rfl rfl, List.map_cons, List.map_cons,
      List.map_replicate, Board.credits, List.foldl_cons, List.foldl_cons,
      ← Board.credits]
    refine List.forall_mem_cons.mpr ⟨by decide,
      List.forall_mem_cons.mpr ⟨by decide, ?_⟩⟩
    intro visitor member
    rw [List.eq_of_mem_replicate member]
    decide
  have last : board = ({ opened with nextId := 0 } : Board).credit cat := by
    rw [credited, count]
    exact Board.credits_lowest_round absent full sorted lowest numbered used
  have scores : board.rows.map Rank.Row.score = [-6, 0] := by
    rw [last]
    decide +kernel
  refine ⟨scores, ?_⟩
  rw [Rank.descending_iff_scores, scores]
  decide

end Session

end Fragboard.Match
