import Fragboard.Match.ScriptedWorld
import Fragboard.Proofs.Match.SessionProjectiles
import Fragboard.Proofs.Rank.DistinctRows

/-!
# One row for each key

A match looks for the row of a life by its key before it creates one.  Where the
key is the name alone, a player with another name is looked for anew, and no two
rows ever have one key.  Where it is the name and the disambiguator, the row that
was noted for the player is renamed, whether or not another row has the new key;
this is the only call that can bring two rows to one key
(`Session.one_row_per_key_iff`).
-/

namespace Fragboard.Match

open Rank (Board OneRowPerKey)

namespace Session

variable {World : Type}

/-- A player takes another name, and the row that is noted for the player gets a
key that another row has. -/
def TakesKey (session : Session World) : Call World → Prop
  | .rename slot name =>
    (session.player slot).connected = true ∧
    (session.player slot).name ≠ name ∧
    session.config.rankBy = .unique ∧
    ∃ id ∈ (session.player slot).rankId, session.board.TakesKey id name
  | _ => False

instance (session : Session World) : DecidablePred session.TakesKey := by
  intro call
  cases call with
  | rename slot name =>
      exact inferInstanceAs (Decidable (_ ∧ _ ∧ _ ∧
        ∃ id ∈ (session.player slot).rankId, session.board.TakesKey id name))
  | _ => exact .isFalse id

variable [GameWorld World]

theorem keepsKeys_lifeChanges (session : Session World) (slot : Slot) :
    ∀ change ∈ session.lifeChanges slot, change.keepsKeys = true := by
  intro change member
  obtain ⟨entry, _, rfl⟩ := List.mem_map.mp member
  rfl

/-- Only a rename and a load put a row under a key without looking for it. -/
theorem keepsKeys_boardChanges (session : Session World) {call : Call World}
    (unloaded : ∀ tree, call ≠ .loadRank tree)
    (unnamed : ∀ slot name, call ≠ .rename slot name) :
    ∀ change ∈ session.boardChanges call, change.keepsKeys = true := by
  have ended : ∀ change ∈ session.playing.flatMap session.lifeChanges ++
      (if session.config.resetRankOnTeardown then [.clear] else []),
      change.keepsKeys = true := by
    intro change member
    rcases List.mem_append.mp member with life | cleared
    · obtain ⟨slot, _, entered⟩ := List.mem_flatMap.mp life
      exact session.keepsKeys_lifeChanges slot change entered
    · split at cleared
      · rw [List.mem_singleton.mp cleared]
        rfl
      · contradiction
  cases call with
  | loadRank tree => exact absurd rfl (unloaded tree)
  | rename slot name => exact absurd rfl (unnamed slot name)
  | disconnect slot =>
      simp only [boardChanges]
      split
      · exact session.keepsKeys_lifeChanges slot
      · simp
  | think slot =>
      simp only [boardChanges]
      split
      · exact session.keepsKeys_lifeChanges slot
      · simp
  | teardown tree => exact ended
  | teardownBackground saver => exact ended
  | _ => simp [boardChanges]

theorem oneRowPerKey_rename {session : Session World}
    (distinct : OneRowPerKey session.board.rows) (slot : Slot)
    (name : String) :
    OneRowPerKey
        (session.board.changes (session.boardChanges (.rename slot name))).rows ↔
      ¬session.TakesKey (.rename slot name) := by
  simp only [boardChanges, TakesKey]
  cases connected : (session.player slot).connected with
  | false => simpa [Board.changes] using distinct
  | true =>
      by_cases same : (session.player slot).name = name
      · simpa [Board.changes, same] using distinct
      · cases keyed : session.config.rankBy with
        | name => simpa [Board.changes, same] using distinct
        | unique =>
            cases noted : (session.player slot).rankId with
            | none => simpa [Board.changes, same] using distinct
            | some id =>
                have renamed := Board.oneRowPerKey_rename_iff distinct id name
                simpa [Board.changes, Board.change, same] using renamed

theorem oneRowPerKey_perform {session : Session World} {call : Call World}
    (distinct : OneRowPerKey session.board.rows)
    (unloaded : ∀ tree, call ≠ .loadRank tree) :
    OneRowPerKey (session.perform call).board.rows ↔
      ¬session.TakesKey call := by
  rw [board_perform]
  by_cases named : ∃ slot name, call = .rename slot name
  · obtain ⟨slot, name, rfl⟩ := named
    exact oneRowPerKey_rename distinct slot name
  · have unnamed : ∀ slot name, call ≠ .rename slot name :=
      fun slot name same => named ⟨slot, name, same⟩
    have harmless : ¬session.TakesKey call := by
      cases call with
      | rename slot name => exact absurd rfl (unnamed slot name)
      | _ => exact id
    have kept := Board.oneRowPerKey_changes distinct
      (session.keepsKeys_boardChanges unloaded unnamed)
    exact ⟨fun _ => harmless, fun _ => kept⟩

/-- Keys stay apart throughout exactly if no call takes a key in use. -/
theorem oneRowPerKey_run_iff {session : Session World}
    (distinct : OneRowPerKey session.board.rows) {calls : List (Call World)}
    (unloaded : ∀ tree, .loadRank tree ∉ calls) :
    (∀ done, done <+: calls →
      OneRowPerKey (session.run done).board.rows) ↔
    ∀ before call after, calls = before ++ call :: after →
      ¬(session.run before).TakesKey call := by
  induction calls generalizing session with
  | nil =>
      constructor
      · intro _ before call after split
        simp at split
      · intro _ done front
        rw [List.prefix_nil.mp front]
        exact distinct
  | cons call rest ih =>
      have unloadedNow : ∀ tree, call ≠ .loadRank tree := by
        rintro tree rfl
        exact unloaded tree List.mem_cons_self
      have unloadedLater : ∀ tree, .loadRank tree ∉ rest :=
        fun tree member => unloaded tree (List.mem_cons_of_mem _ member)
      have now := oneRowPerKey_perform distinct unloadedNow
      constructor
      · intro apart before later after split
        have first : OneRowPerKey (session.perform call).board.rows :=
          apart [call] ⟨rest, rfl⟩
        cases before with
        | nil =>
            obtain ⟨rfl, rfl⟩ := List.cons.inj split
            exact now.mp first
        | cons same before =>
            obtain ⟨rfl, inner⟩ := List.cons.inj split
            apply (ih first unloadedLater).mp _ before later after inner
            intro done front
            exact apart (call :: done) (List.cons_prefix_cons.mpr ⟨rfl, front⟩)
      · intro free done front
        cases done with
        | nil => exact distinct
        | cons same done =>
            obtain ⟨rfl, inner⟩ := List.cons_prefix_cons.mp front
            have first := now.mpr (free [] same rest rfl)
            apply (ih first unloadedLater).mpr _ done inner
            intro before later after split
            exact free (same :: before) later after (congrArg _ split)

theorem rankBy_run (session : Session World) (calls : List (Call World)) :
    (session.run calls).config.rankBy = session.config.rankBy := by
  induction calls generalizing session with
  | nil => rfl
  | cons call rest ih =>
      have first : (session.perform call).config.rankBy =
          session.config.rankBy := by
        by_cases pause : ∃ paused, call = .setPaused paused
        · obtain ⟨paused, rfl⟩ := pause
          rfl
        · rw [config_perform session (not_exists.mp pause)]
      exact (ih (session.perform call)).trans first

/-- In a match that loads no file, no two rows ever have one key if the key is
the name alone.  In general they do exactly if some player takes a name by which
the row noted for the player gets the key of another row. -/
theorem one_row_per_key_iff (config : Config) (world : World)
    (points : PointTable) {calls : List (Call World)}
    (unloaded : ∀ tree, .loadRank tree ∉ calls) :
    let start := Session.new config world points
    (config.rankBy = .name → OneRowPerKey (start.run calls).board.rows) ∧
    ((∀ done, done <+: calls → OneRowPerKey (start.run done).board.rows) ↔
      ∀ before call after, calls = before ++ call :: after →
        ¬(start.run before).TakesKey call) := by
  intro start
  have empty : OneRowPerKey start.board.rows := List.nodup_nil
  have apart := oneRowPerKey_run_iff empty unloaded
  refine ⟨?_, apart⟩
  intro named
  apply apart.mpr _ calls (List.prefix_refl calls)
  intro before call after _ takes
  have keyed : (start.run before).config.rankBy = .name := by
    rw [rankBy_run]
    exact named
  cases call with
  | rename slot name =>
      obtain ⟨_, _, byUnique, _⟩ := takes
      rw [keyed] at byUnique
      contradiction
  | _ => exact takes

/-- A player comes back under another name and is renamed.  The key is new, so
the row of the first stay keeps its own. -/
theorem rows_of_player_renamed_anew :
    let ann : Slot := { index := 0 }
    let body : EntityHandle := { index := 1, generation := 0 }
    let config : Config := { rankBy := .unique }
    let scores (total : Int32) : List (Call ScriptedWorld) :=
      [.messageBegin 1 none, .messageField (.int 1),
        .messageField (.int total), .messageEnd]
    let calls : List (Call ScriptedWorld) :=
      [.register "ObjScore" 1, .register "ResetHUD" 2,
        .changeWorld fun world => (world.join ann 1).2,
        .connect ann "ann" "id:7"] ++ scores 5 ++
      [.disconnect ann, .connect ann "bob" "id:7"] ++ scores 3 ++
      [.messageBegin 2 (some body), .messageEnd,
        .changeWorld (·.advance 1), .think ann, .rename ann "cyd"]
    let start := Session.new config ScriptedWorld.empty PointTable.blank
    (∀ tree, .loadRank tree ∉ calls) ∧
    (start.run calls).board.rows.map Rank.Row.name = ["ann", "cyd"] ∧
    OneRowPerKey (start.run calls).board.rows := by
  intro ann body config scores calls start
  have unloaded : ∀ tree, .loadRank tree ∉ calls := by
    simp [calls, scores]
  have free : ∀ place : Fin calls.length,
      ¬(start.run (calls.take place)).TakesKey (calls.get place) := by
    decide +kernel
  have quiet : ∀ before call after, calls = before ++ call :: after →
      ¬(start.run before).TakesKey call := by
    intro before call after split
    have inside : before.length < calls.length := by
      rw [split, List.length_append, List.length_cons]
      omega
    have here : calls.get ⟨before.length, inside⟩ = call :=
      List.getElem_of_append split rfl
    have front : calls.take before.length = before := by
      rw [split, List.take_left]
    have taken := free ⟨before.length, inside⟩
    rw [here, front] at taken
    exact taken
  have apart : ∀ done, done <+: calls →
      OneRowPerKey (start.run done).board.rows :=
    (one_row_per_key_iff config ScriptedWorld.empty PointTable.blank
      unloaded).2.mpr quiet
  exact ⟨unloaded, by decide +kernel, apart calls (List.prefix_refl calls)⟩

/-- A player comes back under another name and then takes the old one: now two
rows have the name and the disambiguator of the player. -/
theorem rows_of_player_renamed_back :
    let ann : Slot := { index := 0 }
    let body : EntityHandle := { index := 1, generation := 0 }
    let config : Config := { rankBy := .unique }
    let scores (total : Int32) : List (Call ScriptedWorld) :=
      [.messageBegin 1 none, .messageField (.int 1),
        .messageField (.int total), .messageEnd]
    let calls : List (Call ScriptedWorld) :=
      [.register "ObjScore" 1, .register "ResetHUD" 2,
        .changeWorld fun world => (world.join ann 1).2,
        .connect ann "ann" "id:7"] ++ scores 5 ++
      [.disconnect ann, .connect ann "bob" "id:7"] ++ scores 3 ++
      [.messageBegin 2 (some body), .messageEnd,
        .changeWorld (·.advance 1), .think ann, .rename ann "ann"]
    let start := Session.new config ScriptedWorld.empty PointTable.blank
    (start.run calls).board.rows.map Rank.Row.name = ["ann", "ann"] ∧
    (start.run calls).board.rows.map Rank.Row.unique = ["id:7", "id:7"] ∧
    ¬OneRowPerKey (start.run calls).board.rows := by
  decide +kernel

end Session

end Fragboard.Match
