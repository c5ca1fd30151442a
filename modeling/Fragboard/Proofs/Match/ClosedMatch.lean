import Fragboard.Match.ScriptedWorld
import Fragboard.Proofs.Match.SessionTally

/-!
# Ending a match more than once

A match may have to be ended again, since writing its leaderboard can fail after
the lives are already closed.  A life that was entered or left out is cleared, so
there is nothing more to enter: the second end finds the match `Closed`, and all
that it does is to write the same image once more.
-/

namespace Fragboard

theorem Cells.alter_of_fixed {size : Nat} {α : Type} (cells : Cells size α)
    (index : Fin size) (change : α → α)
    (fixed : change (cells.get index) = cells.get index) :
    cells.alter index change = cells := by
  apply Cells.ext_get
  intro other
  rw [Cells.get_alter]
  split
  · next here => rw [← here, fixed]
  · rfl

namespace Match

open Rank (Saver)
open Storage (FileTree)

theorem Tally.restart_of_cleared {tally : Tally} {slot : Slot}
    (cleared : (tally.player slot).life = {}) :
    tally.restart slot false = tally := by
  have fixed : (tally.player slot).restart false = tally.player slot :=
    congrArg (fun life => { tally.player slot with life := life }) cleared.symm
  exact congrArg (fun players => { tally with players := players })
    (tally.players.alter_of_fixed slot.index (·.restart false) fixed)

namespace Session

variable {World : Type} [GameWorld World]

section ClearedLife

variable {session : Session World} {slot : Slot}
  (cleared : (session.tally.player slot).life = {})

include cleared

theorem lifeToEnter?_of_cleared : session.lifeToEnter? slot = none := by
  simp only [lifeToEnter?, cleared]
  exact ite_self none

theorem flushLife_of_cleared : session.flushLife slot = session := by
  rcases session.flushLife_cases slot with
    ⟨_, same⟩ | ⟨entry, kept, something, _⟩
  · exact same
  · rw [lifeToEnter?_of_cleared cleared] at something
    contradiction

theorem closeLife_of_cleared : session.closeLife slot = session := by
  rw [closeLife, flushLife_of_cleared cleared, mapTally,
    Tally.restart_of_cleared cleared]

end ClearedLife

theorem closing_of_cleared {session : Session World} {slots : List Slot}
    (cleared : ∀ slot ∈ slots, (session.tally.player slot).life = {}) :
    slots.foldl closeLife session = session := by
  induction slots with
  | nil => rfl
  | cons slot slots ih =>
      obtain ⟨here, later⟩ := List.forall_mem_cons.mp cleared
      rw [List.foldl_cons, closeLife_of_cleared here, ih later]

/-- The lives of some players are closed, and the leaderboard is empty where the
end of the match empties it. -/
structure Closed (session : Session World) (players : List Slot) : Prop where
  lives : ∀ slot ∈ players, (session.tally.player slot).life = {}
  rows : session.config.resetRankOnTeardown = true → session.board.rows = []

theorem config_closeMatch (session : Session World) :
    session.closeMatch.config = session.config :=
  (session.sameStage_closing session.playing).config

/-- The end of a closed match, nobody else being in the game, only forgets
projectiles. -/
theorem Closed.closeMatch {session : Session World} {players : List Slot}
    (closed : session.Closed players)
    (known : ∀ slot ∈ session.playing, slot ∈ players) :
    session.closeMatch =
      { session with attributor := session.attributor.clearProjectiles } := by
  have lives : session.playing.foldl closeLife session = session := by
    apply closing_of_cleared
    intro slot member
    exact closed.lives slot (known slot member)
  unfold Session.closeMatch
  dsimp only
  rw [lives]
  split
  · next resets =>
      have board : session.board.clear = session.board :=
        congrArg (fun rows => { session.board with rows := rows })
          (closed.rows resets).symm
      rw [board]
  · rfl

/-- A call by which nothing comes to be recorded, once the lives of some players
are closed.  It ends the match again while nobody else is in the game, or takes
one of them out of the game, or it asks nothing of the counters and changes
nothing on the leaderboard. -/
def recordsNothing (session : Session World) (players : List Slot) :
    Call World → Bool
  | .teardown _ | .teardownBackground _ =>
    session.playing.all (players.contains ·)
  | .disconnect slot => players.contains slot
  | call =>
    (session.tallyCalls call).isEmpty && (session.boardChanges call).isEmpty

section Quiet

variable {session : Session World} {players : List Slot} {call : Call World}

theorem recordsNothing_cases
    (quiet : session.recordsNothing players call = true) :
    (session.perform call = session.closeMatch ∧
      ∀ slot ∈ session.playing, slot ∈ players) ∨
    (∃ slot ∈ players, call = .disconnect slot) ∨
    session.tallyCalls call = [] ∧ session.boardChanges call = [] := by
  cases call with
  | teardown tree => exact .inl ⟨rfl, by simpa [recordsNothing] using quiet⟩
  | teardownBackground saver =>
      exact .inl ⟨rfl, by simpa [recordsNothing] using quiet⟩
  | disconnect slot =>
      exact .inr (.inl ⟨slot, by simpa [recordsNothing] using quiet, rfl⟩)
  | _ =>
      right
      right
      simpa only [recordsNothing, Bool.and_eq_true, List.isEmpty_iff]
        using quiet

theorem parts_of_closed (closed : session.Closed players)
    (quiet : session.recordsNothing players call = true) :
    (session.perform call).tally = session.tally ∧
      (session.perform call).board = session.board := by
  rcases recordsNothing_cases quiet with
    ⟨ends, known⟩ | ⟨slot, member, rfl⟩ | ⟨asked, changes⟩
  · rw [ends, closed.closeMatch known]
    exact ⟨rfl, rfl⟩
  · simp only [perform, disconnect,
      flushLife_of_cleared (closed.lives slot member)]
    split <;> exact ⟨rfl, rfl⟩
  · rw [tally_perform, board_perform, asked, changes]
    exact ⟨rfl, rfl⟩

theorem Closed.perform (closed : session.Closed players)
    (quiet : session.recordsNothing players call = true) :
    (session.perform call).Closed players := by
  obtain ⟨tally, board⟩ := parts_of_closed closed quiet
  have resets : (session.perform call).config.resetRankOnTeardown =
      session.config.resetRankOnTeardown := by
    by_cases pauses : ∃ paused, call = .setPaused paused
    · obtain ⟨paused, rfl⟩ := pauses
      rfl
    · rw [config_perform]
      exact not_exists.mp pauses
  constructor
  · rw [tally]
    exact closed.lives
  · rw [resets, board]
    exact closed.rows

end Quiet

end Session

end Match

end Fragboard
