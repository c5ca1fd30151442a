import Fragboard.Proofs.Match.SessionCalls
import Fragboard.Proofs.Rank.BoundedBoard

/-!
# Visits with a score

A player who comes, is reported to have a score and leaves has lived one life,
and what it brings to the leaderboard is the score.  The session is then as
ready for the next visit as before, so any number of them credits the players
one after the other.
-/

namespace Fragboard.Match

open Message (Decoder Registry)
open Rank (Board)

namespace Session

/-- The slot of the visitors, which messages call one. -/
def visitorSlot : Slot :=
  { index := ⟨0, by decide⟩ }

variable {World : Type}

/-- The calls of a visit, with score reports registered as number one. -/
def visit (name : String) (score : Int32) : List (Call World) :=
  [.connect visitorSlot name "",
    .messageBegin 1 none, .messageField (.int 1), .messageField (.int score),
    .messageEnd,
    .disconnect visitorSlot]

def visits (visitors : List (String × Int32)) : List (Call World) :=
  visitors.flatMap fun visitor => visit visitor.1 visitor.2

/-- What a visitor is credited with. -/
def scoredLife (visitor : String × Int32) : String × StatBlock :=
  (visitor.1, StatBlock.zero.award visitor.2)

/-- Scores are reported and counted, and lives are entered under names. -/
structure Scoring (session : Session World) : Prop where
  bound : session.decoder.registry.kindOf? 1 = some .objectiveScore
  counted : session.config.paused = false
  byName : session.config.rankBy = .name
  withBots : session.config.rankBots = true

theorem Scoring.of_same {before after : Session World}
    (scoring : before.Scoring) (config : after.config = before.config)
    (registry : after.decoder.registry = before.decoder.registry) :
    after.Scoring where
  bound := registry ▸ scoring.bound
  counted := config ▸ scoring.counted
  byName := config ▸ scoring.byName
  withBots := config ▸ scoring.withBots

/-- The session within a report, before one of its fields or its end. -/
def reporting (session : Session World) (scorePlayer : Option Slot)
    (position : Nat) : Session World :=
  { session with
    decoder :=
      { session.decoder with
        context := some
          { kind := some .objectiveScore, subject := none,
            position := position } }
    draft := { scorePlayer := scorePlayer }
    subjectEntity := none }

variable [GameWorld World] {session : Session World}

theorem run_report
    (bound : session.decoder.registry.kindOf? 1 = some .objectiveScore)
    (score : Int32) :
    session.run
        [.messageBegin 1 none, .messageField (.int 1),
          .messageField (.int score), .messageEnd] =
      ((session.reporting visitorSlot 2).objectiveScore visitorSlot
        score).messageEnd := by
  have begun : session.messageBegin 1 none = session.reporting none 0 := by
    simp only [messageBegin, Decoder.start, bound]
    rfl
  have addressed : (session.reporting none 0).messageField (.int 1) =
      session.reporting visitorSlot 1 := rfl
  have scored : (session.reporting visitorSlot 1).messageField (.int score) =
      (session.reporting visitorSlot 2).objectiveScore visitorSlot score := rfl
  simp only [run, List.foldl_cons, List.foldl_nil, perform, begun, addressed,
    scored]

/-- The first score that is reported of a player counts as a whole. -/
theorem messageEnd_reporting (scorePlayer : Option Slot) {slot : Slot}
    (connected : (session.player slot).connected = true)
    (first : (session.player slot).savedScore = 0)
    (counted : session.config.paused = false) {score : Int32}
    (scored : score ≠ 0) :
    let after := ((session.reporting scorePlayer 2).objectiveScore slot
      score).messageEnd
    after.config = session.config ∧
    after.decoder.registry = session.decoder.registry ∧
    after.board = session.board ∧
    (after.player slot).connected = true ∧
    (after.player slot).name = (session.player slot).name ∧
    after.tally = session.tally.awardObjective slot score := by
  intro after
  let reported := session.reporting scorePlayer 2
  let noted : PlayerState :=
    { session.player slot with
      connected := true
      savedScore := score
      lastDelta := score
      announceAt :=
        some (GameWorld.now session.world + session.config.scoreNotifyDelay) }
  have same : reported.player slot = session.player slot := rfl
  have unpaused : reported.config.paused = false := counted
  have award : reported.objectiveScore slot score =
      (reported.setPlayer slot noted).mapTally
        (·.awardObjective slot score) := by
    simp only [objectiveScore, same, connected, first, unpaused]
    simp [scored, noted]
    rfl
  have ended : after =
      ((reported.setPlayer slot noted).mapTally
        (·.awardObjective slot score)).messageEnd :=
    congrArg messageEnd award
  have player : after.player slot = noted := by
    rw [ended]
    exact reported.player_setPlayer_self slot noted
  rw [player, ended]
  exact ⟨rfl, rfl, rfl, rfl, rfl, rfl⟩

/-- Leaving enters the life. -/
theorem disconnect_scored (scoring : session.Scoring) {slot : Slot}
    {visitor : String × Int32}
    (connected : (session.player slot).connected = true)
    (named : (session.player slot).name = visitor.1)
    (life : (session.tally.player slot).life.total =
      StatBlock.zero.award visitor.2)
    (counts : (StatBlock.zero.award visitor.2).isZero = false) :
    (session.disconnect slot).board =
      session.board.credit (scoredLife visitor) ∧
    (session.disconnect slot).Scoring := by
  have entered : session.lifeToEnter? slot =
      some (Board.lifeOf (scoredLife visitor)) := by
    simp [lifeToEnter?, rankUnique, scoring.withBots, scoring.byName, life,
      named, counts, Board.lifeOf, scoredLife]
  have left : session.disconnect slot =
      (session.flushLife slot).setPlayer slot {} :=
    if_pos connected
  rw [left]
  constructor
  · rw [setPlayer_board, flushLife_board, lifeChanges, entered]
    rfl
  · have decoder : (session.flushLife slot).decoder = session.decoder :=
      flushLife_part Session.decoder (fun _ _ => rfl) (fun _ _ _ => rfl)
        session slot
    exact scoring.of_same (session.flushLife_config slot)
      (congrArg Decoder.registry decoder)

theorem run_visit (scoring : session.Scoring) {visitor : String × Int32}
    (counts : (StatBlock.zero.award visitor.2).isZero = false) :
    (session.run (visit visitor.1 visitor.2)).board =
      session.board.credit (scoredLife visitor) ∧
    (session.run (visit visitor.1 visitor.2)).Scoring := by
  let present := session.connect visitorSlot visitor.1 ""
  let before := present.run
    [.messageBegin 1 none, .messageField (.int 1),
      .messageField (.int visitor.2), .messageEnd]
  have player : present.player visitorSlot =
      { connected := true, name := visitor.1, unique := "" } :=
    session.player_setPlayer_self visitorSlot _
  have connected : (present.player visitorSlot).connected = true := by
    rw [player]
  have first : (present.player visitorSlot).savedScore = 0 := by rw [player]
  have scored : visitor.2 ≠ 0 := by
    intro nothing
    rw [nothing] at counts
    exact absurd counts (by decide)
  have bound : present.decoder.registry.kindOf? 1 = some .objectiveScore :=
    scoring.bound
  have reported : before = ((present.reporting visitorSlot 2).objectiveScore
      visitorSlot visitor.2).messageEnd :=
    run_report bound visitor.2
  obtain ⟨config, registry, board, stays, named, tally⟩ :=
    messageEnd_reporting visitorSlot connected first scoring.counted scored
  rw [← reported] at config registry board stays named tally
  rw [player] at named
  have wiped : present.tally.player visitorSlot = { name := visitor.1 } :=
    session.tally.player_change_self visitorSlot _
  have life : (before.tally.player visitorSlot).life.total =
      StatBlock.zero.award visitor.2 := by
    rw [tally, Tally.awardObjective, Tally.player_change_self, wiped]
    rfl
  have ready : before.Scoring := scoring.of_same config registry
  have left := disconnect_scored ready stays named life counts
  rw [board] at left
  exact left

/-- Visits with scores that count credit the visitors in order. -/
theorem run_visits (scoring : session.Scoring)
    {visitors : List (String × Int32)}
    (count : ∀ visitor ∈ visitors,
      (StatBlock.zero.award visitor.2).isZero = false) :
    (session.run (visits visitors)).board =
      session.board.credits (visitors.map scoredLife) := by
  induction visitors generalizing session with
  | nil => rfl
  | cons visitor visitors ih =>
      obtain ⟨first, later⟩ := List.forall_mem_cons.mp count
      obtain ⟨board, scoring⟩ := run_visit scoring first
      rw [visits, List.flatMap_cons, run_append, ← visits, ih scoring later,
        board]
      rfl

/-- A match of visits alone credits the visitors on an empty leaderboard. -/
theorem run_visits_of_new {config : Config} (counted : config.paused = false)
    (byName : config.rankBy = .name) (withBots : config.rankBots = true)
    (world : World) (points : PointTable) {visitors : List (String × Int32)}
    (count : ∀ visitor ∈ visitors,
      (StatBlock.zero.award visitor.2).isZero = false) :
    ((Session.new config world points).run
        (.register "ObjScore" 1 :: visits visitors)).board =
      (Board.empty config.rankCapacity points).credits
        (visitors.map scoredLife) := by
  let start := (Session.new config world points).perform
    (.register "ObjScore" 1)
  have bound : (Registry.empty.bind "ObjScore" 1).2.kindOf? 1 =
      some .objectiveScore := by decide +kernel
  have scoring : start.Scoring := ⟨bound, counted, byName, withBots⟩
  exact run_visits scoring count

end Session

end Fragboard.Match
