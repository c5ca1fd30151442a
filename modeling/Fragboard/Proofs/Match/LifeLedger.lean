import Fragboard.Match.ScriptedWorld
import Fragboard.Proofs.Match.SessionCalls
import Fragboard.Proofs.Rank.BoardTotals

/-!
# The ledger of lives

What was counted in a life is either still in the life or in a row of the
leaderboard.  The ledger of a counter adds up both.  A life is entered and
cleared by the same call, so the ledger stays as it is: a life that was entered
twice would raise it, and one that was cleared without being entered would lower
it.
-/

namespace Fragboard

namespace Match

open Rank (Board)
open Storage (FileTree)

namespace Session

variable {World : Type}

/-- What a counter of a connected player's life holds. -/
def openLife (session : Session World) (counter : Counter) (slot : Slot) :
    Int :=
  if (session.player slot).connected then
    ((session.tally.player slot).life.total.get counter).toInt
  else
    0

/-- A counter summed over all rows and over the lives of all connected
players. -/
def ledger (session : Session World) (counter : Counter) : Int :=
  session.board.total counter + (Slot.all.map (session.openLife counter)).sum

/-- The same players are connected, and the same lives are under way. -/
structure SameLives (before after : Session World) : Prop where
  connected : ∀ slot,
    (after.player slot).connected = (before.player slot).connected
  life : ∀ slot,
    (after.tally.player slot).life = (before.tally.player slot).life

theorem SameLives.trans {first second third : Session World}
    (upper : first.SameLives second) (lower : second.SameLives third) :
    first.SameLives third where
  connected := fun slot =>
    (lower.connected slot).trans (upper.connected slot)
  life := fun slot => (lower.life slot).trans (upper.life slot)

theorem SameLives.openLife {before after : Session World}
    (same : before.SameLives after) (counter : Counter) :
    after.openLife counter = before.openLife counter := by
  funext slot
  simp only [Session.openLife, same.connected, same.life]

theorem sameLives_setPlayer (session : Session World) (slot : Slot)
    (state : PlayerState)
    (connected : state.connected = (session.player slot).connected) :
    session.SameLives (session.setPlayer slot state) := by
  constructor
  · intro other
    rw [player_setPlayer]
    split
    · next here => rw [← here, connected]
    · rfl
  · intro other
    rfl

theorem sameLives_mapTally (session : Session World) (change : Tally → Tally)
    (life : ∀ slot, ((change session.tally).player slot).life =
      (session.tally.player slot).life) :
    session.SameLives (session.mapTally change) :=
  ⟨fun _ => rfl, life⟩

theorem openLife_restart (session : Session World) (slot : Slot) (full : Bool)
    (counter : Counter) :
    (session.mapTally (·.restart slot full)).openLife counter slot = 0 := by
  have life : ((session.mapTally (·.restart slot full)).tally.player
      slot).life = {} := session.tally.life_restart_self slot full
  rw [openLife, life]
  split
  · exact congrArg Int32.toInt (StatBlock.get_zero counter)
  · rfl

theorem openLife_restart_of_ne (session : Session World) {slot other : Slot}
    (full : Bool) (counter : Counter) (apart : slot ≠ other) :
    (session.mapTally (·.restart slot full)).openLife counter other =
      session.openLife counter other := by
  have player : (session.mapTally (·.restart slot full)).tally.player other =
      session.tally.player other :=
    session.tally.player_change_of_ne _ apart
  rw [openLife, openLife, player]
  rfl

theorem sameLives_board (session : Session World) (board : Board) :
    session.SameLives { session with board := board } :=
  ⟨fun _ => rfl, fun _ => rfl⟩

theorem sameLives_emit (session : Session World) (event : Event) :
    session.SameLives (session.emit event) :=
  ⟨fun _ => rfl, fun _ => rfl⟩

section Ledger

variable {before after : Session World} {counter : Counter}

theorem ledger_of_sameLives (same : before.SameLives after)
    (board : after.board.total counter = before.board.total counter) :
    after.ledger counter = before.ledger counter := by
  rw [ledger, ledger, board, same.openLife counter]

/-- The ledger stays when one life goes from its player to the board. -/
theorem ledger_of_moved (slot : Slot)
    (entered : after.board.total counter =
      before.board.total counter + before.openLife counter slot)
    (cleared : after.openLife counter slot = 0)
    (others : ∀ other, slot ≠ other →
      after.openLife counter other = before.openLife counter other) :
    after.ledger counter = before.ledger counter := by
  have sums := sum_map_of_one Slot.nodup_all slot.mem_all others
  simp only [ledger, entered]
  omega

end Ledger

theorem ledger_rename (session : Session World) (slot : Slot) (name : String)
    (counter : Counter) :
    (session.rename slot name).ledger counter = session.ledger counter := by
  let renamed := session.mapTally (·.setName slot name)
  have named : session.SameLives renamed :=
    session.sameLives_mapTally _ fun other =>
      session.tally.life_setName slot other name
  unfold rename
  dsimp only
  split
  · rfl
  · cases session.config.rankBy with
    | name =>
        have noted := renamed.sameLives_setPlayer slot
          { session.player slot with name := name, rankId := none } rfl
        exact ledger_of_sameLives (named.trans noted) rfl
    | unique =>
        have noted (board : Board) :=
          ({ renamed with board := board }).sameLives_setPlayer slot
            { session.player slot with name := name } rfl
        apply ledger_of_sameLives
          ((named.trans (renamed.sameLives_board _)).trans (noted _))
        cases (session.player slot).rankId with
        | none => rfl
        | some id => exact session.board.total_rename id name counter

theorem ledger_clearRound (session : Session World) (slot : Slot)
    (counter : Counter) :
    (session.mapTally (·.clearRound slot)).ledger counter =
      session.ledger counter :=
  ledger_of_sameLives (session.sameLives_mapTally _ fun other =>
    session.tally.life_clearRound slot other) rfl

variable [GameWorld World]

theorem sameLives_flushLife (session : Session World) (slot : Slot) :
    session.SameLives (session.flushLife slot) := by
  constructor
  · exact session.flushLife_connected slot
  · intro other
    rw [session.flushLife_tally slot]

/-- With bots on the board, only an empty life is not entered. -/
theorem lifeToEnter?_cases {session : Session World}
    (bots : session.config.rankBots = true) (slot : Slot) :
    (session.lifeToEnter? slot = none ∧
      (session.tally.player slot).life.total = StatBlock.zero) ∨
    ∃ entry, session.lifeToEnter? slot = some entry ∧
      entry.life = (session.tally.player slot).life.total := by
  simp only [lifeToEnter?, bots, Bool.not_true, Bool.false_and,
    Bool.false_eq_true, if_false]
  split
  · next empty => exact .inl ⟨rfl, by simpa [StatBlock.isZero] using empty⟩
  · exact .inr ⟨_, rfl, rfl⟩

theorem total_flushLife {session : Session World} {slot : Slot}
    (bots : session.config.rankBots = true)
    (connected : (session.player slot).connected = true)
    (lossless : session.board.ChangesExactly (session.lifeChanges slot))
    (counter : Counter) :
    (session.flushLife slot).board.total counter =
      session.board.total counter + session.openLife counter slot := by
  rw [flushLife_board, openLife, if_pos connected]
  rcases lifeToEnter?_cases bots slot with
    ⟨nothing, empty⟩ | ⟨entry, something, life⟩
  · simp [lifeChanges, nothing, empty, Board.changes]
  · simp only [lifeChanges, something, Option.toList_some, List.map_cons,
      List.map_nil] at lossless ⊢
    rw [← life]
    exact Board.total_enter lossless.1 counter

/-- A life is entered and cleared by the same step. -/
theorem ledger_flushed {session after : Session World} {slot : Slot}
    (bots : session.config.rankBots = true)
    (connected : (session.player slot).connected = true)
    (lossless : session.board.ChangesExactly (session.lifeChanges slot))
    (board : after.board = (session.flushLife slot).board)
    (counter : Counter)
    (cleared : after.openLife counter slot = 0)
    (others : ∀ other, slot ≠ other →
      after.openLife counter other =
        (session.flushLife slot).openLife counter other) :
    after.ledger counter = session.ledger counter := by
  apply ledger_of_moved slot
  · rw [board, total_flushLife bots connected lossless counter]
  · exact cleared
  · intro other apart
    rw [others other apart, (session.sameLives_flushLife slot).openLife counter]

theorem ledger_restarted {session : Session World} {slot : Slot}
    (bots : session.config.rankBots = true)
    (connected : (session.player slot).connected = true)
    (lossless : session.board.ChangesExactly (session.lifeChanges slot))
    (full : Bool) (counter : Counter) :
    ((session.flushLife slot).mapTally (·.restart slot full)).ledger counter =
      session.ledger counter := by
  apply ledger_flushed bots connected lossless (mapTally_board _ _)
  · exact openLife_restart _ slot full counter
  · intro other apart
    exact openLife_restart_of_ne _ full counter apart

theorem ledger_disconnect {session : Session World} {slot : Slot}
    (bots : session.config.rankBots = true)
    (lossless : session.board.ChangesExactly
      (session.boardChanges (.disconnect slot)))
    (counter : Counter) :
    (session.disconnect slot).ledger counter = session.ledger counter := by
  unfold disconnect
  cases connected : (session.player slot).connected with
  | false => rfl
  | true =>
      simp only [boardChanges, connected, if_true] at lossless ⊢
      apply ledger_flushed bots connected lossless (setPlayer_board _ _ _)
      · simp [openLife]
      · intro other apart
        rw [openLife, openLife, player_setPlayer_of_ne _ _ apart]
        rfl

theorem ledger_applyDue (session : Session World) (slot : Slot)
    (due : DueClears) (bots : session.config.rankBots = true)
    (connected : (session.player slot).connected = true)
    (lossless : due.life.isSome →
      session.board.ChangesExactly (session.lifeChanges slot))
    (counter : Counter) :
    (session.applyDue slot due).ledger counter = session.ledger counter := by
  unfold applyDue
  cases life : due.life with
  | none =>
      dsimp only
      split
      · exact session.ledger_clearRound slot counter
      · rfl
  | some full =>
      have restarted := ledger_restarted bots connected
        (lossless (by rw [life]; rfl)) full counter
      dsimp only
      split
      · rw [ledger_clearRound, restarted]
      · exact restarted

theorem ledger_announceScore (session : Session World) (slot : Slot)
    (counter : Counter) :
    (session.announceScore slot).ledger counter = session.ledger counter := by
  unfold announceScore
  dsimp only
  split
  · have noted := session.sameLives_setPlayer slot
      { session.player slot with announceAt := none } rfl
    exact ledger_of_sameLives (noted.trans (sameLives_emit _ _)) rfl
  · rfl

theorem ledger_think {session : Session World} {slot : Slot}
    (bots : session.config.rankBots = true)
    (lossless : session.board.ChangesExactly
      (session.boardChanges (.think slot)))
    (counter : Counter) :
    (session.think slot).ledger counter = session.ledger counter := by
  unfold think
  cases playing : session.isPlaying slot with
  | false => rfl
  | true =>
      have connected : (session.player slot).connected = true := by
        simp only [isPlaying, Bool.and_eq_true] at playing
        exact playing.1
      let now := GameWorld.now session.world
      let due := (session.tally.takeDue slot now).1
      let taken := session.mapTally fun tally => (tally.takeDue slot now).2
      have same : session.SameLives taken :=
        session.sameLives_mapTally _ fun other =>
          session.tally.life_takeDue slot other now
      have losslessTaken : due.life.isSome →
          session.board.ChangesExactly (taken.lifeChanges slot) := by
        intro comes
        have changes : taken.lifeChanges slot = session.lifeChanges slot :=
          session.lifeChanges_takeDue slot now
        rw [changes]
        simpa only [boardChanges, playing, due, now, comes, Bool.and_self,
          if_true] using lossless
      have applied := taken.ledger_applyDue slot due bots connected
        losslessTaken counter
      have announced := (taken.applyDue slot due).ledger_announceScore slot
        counter
      have kept : taken.ledger counter = session.ledger counter :=
        ledger_of_sameLives same rfl
      exact announced.trans (applied.trans kept)

/-- Closing one life leaves the others to be entered as they were. -/
theorem ledger_closing {session : Session World} {slots : List Slot}
    (bots : session.config.rankBots = true) (distinct : slots.Nodup)
    (connected : ∀ slot ∈ slots, (session.player slot).connected = true)
    (lossless : session.board.ChangesExactly
      (slots.flatMap session.lifeChanges))
    (counter : Counter) :
    (slots.foldl closeLife session).ledger counter =
      session.ledger counter := by
  induction slots generalizing session with
  | nil => rfl
  | cons slot slots ih =>
      obtain ⟨absent, distinctRest⟩ := List.nodup_cons.mp distinct
      obtain ⟨here, later⟩ := List.forall_mem_cons.mp connected
      rw [List.flatMap_cons, Board.changesExactly_append] at lossless
      have first : (session.closeLife slot).ledger counter =
          session.ledger counter :=
        ledger_restarted bots here lossless.1 false counter
      have botsKept : (session.closeLife slot).config.rankBots = true := by
        rw [← bots]
        exact congrArg Config.rankBots (session.flushLife_config slot)
      have connectedKept : ∀ other ∈ slots,
          ((session.closeLife slot).player other).connected = true := by
        intro other member
        rw [← later other member]
        exact session.flushLife_connected slot other
      rw [List.foldl_cons, ih botsKept distinctRest connectedKept, first]
      rw [session.lifeChanges_closeLife absent]
      have board : (session.closeLife slot).board =
          session.board.changes (session.lifeChanges slot) :=
        session.flushLife_board slot
      rw [board]
      exact lossless.2

theorem ledger_closeMatch {session : Session World}
    (bots : session.config.rankBots = true)
    (keeps : session.config.resetRankOnTeardown = false)
    (lossless : session.board.ChangesExactly
      (session.playing.flatMap session.lifeChanges))
    (counter : Counter) :
    session.closeMatch.ledger counter = session.ledger counter := by
  have connected : ∀ slot ∈ session.playing,
      (session.player slot).connected = true := by
    intro slot member
    have playing := (List.mem_filter.mp member).2
    simp only [isPlaying, Bool.and_eq_true] at playing
    exact playing.1
  rw [← ledger_closing bots session.playing_nodup connected lossless
    counter]
  simp only [closeMatch, keeps, Bool.false_eq_true, if_false]
  exact ledger_of_sameLives ⟨fun _ => rfl, fun _ => rfl⟩ rfl

theorem ledger_perform {session : Session World} {call : Call World}
    (bots : session.config.rankBots = true)
    (keeps : session.config.resetRankOnTeardown = false)
    (ends : call.endsLives = true)
    (lossless : session.board.ChangesExactly (session.boardChanges call))
    (counter : Counter) :
    (session.perform call).ledger counter = session.ledger counter := by
  cases call with
  | think slot => exact ledger_think bots lossless counter
  | disconnect slot => exact ledger_disconnect bots lossless counter
  | rename slot name => exact session.ledger_rename slot name counter
  | teardown tree =>
      simp only [boardChanges, keeps, Bool.false_eq_true, if_false,
        List.append_nil] at lossless
      exact ledger_closeMatch bots keeps lossless counter
  | teardownBackground saver =>
      simp only [boardChanges, keeps, Bool.false_eq_true, if_false,
        List.append_nil] at lossless
      exact ledger_closeMatch bots keeps lossless counter
  | _ => contradiction

/-- A call that reports play makes no change to the board. -/
theorem boardChanges_of_reportsPlay (session : Session World)
    {call : Call World} (reports : call.reportsPlay = true) :
    session.boardChanges call = [] := by
  cases call with
  | messageBegin id subject => rfl
  | messageField value => rfl
  | messageEnd => rfl
  | aimTrace shooter hitGroup => rfl
  | projectileTrace owner projectile className position => rfl
  | _ => contradiction

/-- Where bots are entered and the board is kept at the end, no life is lost and
none is entered twice: a call that ends lives leaves the ledger of every counter
alone unless it drops a row or a counter stops at a bound.  Play itself does not
reach the board. -/
theorem ledger_kept_by_calls (session : Session World)
    (bots : session.config.rankBots = true)
    (keeps : session.config.resetRankOnTeardown = false) :
    (∀ call : Call World, call.endsLives = true →
      session.board.ChangesExactly (session.boardChanges call) →
      ∀ counter, (session.perform call).ledger counter =
        session.ledger counter) ∧
    (∀ call : Call World, call.reportsPlay = true →
      (session.perform call).board = session.board) := by
  constructor
  · intro call ends lossless counter
    exact ledger_perform bots keeps ends lossless counter
  · intro call reports
    rw [session.board_perform call, session.boardChanges_of_reportsPlay reports]
    rfl

/-- Two players whose names differ in case share a row; the end of the match
enters both lives into it, and what was counted remains. -/
theorem ledger_of_shared_row :
    let calls : List (Call ScriptedWorld) :=
      [.changeWorld fun world => (world.join { index := 0 } 1).2,
        .changeWorld fun world => (world.join { index := 1 } 2).2,
        .register "ObjScore" 1, .connect { index := 0 } "anna" "",
        .connect { index := 1 } "Anna" "",
        .messageBegin 1 none, .messageField (.int 1),
        .messageField (.int (-7)), .messageEnd,
        .messageBegin 1 none, .messageField (.int 2),
        .messageField (.int 5), .messageEnd]
    let session :=
      (Session.new {} ScriptedWorld.empty PointTable.blank).run calls
    session.board.rows = [] ∧
    (session.perform (.teardown .empty)).board.rows.map Rank.Row.score =
      [-2] ∧
    (session.perform (.teardown .empty)).ledger .points =
      session.ledger .points ∧
    (session.perform .messageEnd).board = session.board := by
  intro calls session
  have bots : session.config.rankBots = true := by decide +kernel
  have keeps : session.config.resetRankOnTeardown = false := by
    decide +kernel
  have lossless : session.board.ChangesExactly
      (session.boardChanges (.teardown .empty)) := by decide +kernel
  obtain ⟨settling, reporting⟩ := ledger_kept_by_calls session bots keeps
  exact ⟨by decide +kernel, by decide +kernel,
    settling (.teardown .empty) rfl lossless .points,
    reporting .messageEnd rfl⟩

end Session

end Match

end Fragboard
