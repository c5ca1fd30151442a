import Fragboard.Proofs.Match.SameGround
import Fragboard.Proofs.Rank.BoardChanges
import Mathlib.Data.List.Induction

/-!
# Calls of a session and what they change on the leaderboard

`Session.perform` is one call of a session's public interface and `Session.run`
a sequence of calls.  Between its calls the host may change the world and take
reports from the channel; both stand among the calls.

`Session.board_perform` describes every call by the changes that it makes to the
leaderboard, in order.  Nothing else about a session is needed to follow its
board.

What stands after a sequence of calls was set by one of them and not given up
since; `Session.Since` is that call with all that came after it.
-/

namespace Fragboard.Match

open Message (FieldMeaning FieldValue EndAction)
open Rank (Board LifeEntry RankId Saver)
open Storage (FileTree FilePath)

namespace Session

inductive Call (World : Type) where
  | register (name : String) (id : Int32)
  | loadRank (tree : FileTree)
  | setPaused (paused : Bool)
  | setBritishAllies (british : Bool)
  | setMatchId (id : String)
  | changeWorld (change : World → World)
  | receiveEvent
  | drainEvents
  | connect (slot : Slot) (name unique : String)
  | disconnect (slot : Slot)
  | rename (slot : Slot) (name : String)
  | messageBegin (id : Int32) (subject : Option EntityHandle)
  | messageField (value : FieldValue)
  | messageEnd
  | aimTrace (shooter : Slot) (hitGroup : Int32)
  | projectileTrace (owner : Slot) (projectile : EntityHandle)
      (className : String) (position : Position)
  | think (slot : Slot)
  | resetPlayerStats (slot : Slot)
  | resetAllStats
  | flushAllStats
  | teardown (tree : FileTree)
  | teardownBackground (saver : Saver)

variable {World : Type}

/-- A call at which lives may end, or a player takes another name. -/
def Call.endsLives : Call World → Bool
  | .think _ | .disconnect _ | .rename _ _ => true
  | .teardown _ | .teardownBackground _ => true
  | _ => false

/-- A call that passes on what the engine reports. -/
def Call.reportsPlay : Call World → Bool
  | .messageBegin _ _ | .messageField _ | .messageEnd => true
  | .aimTrace _ _ | .projectileTrace _ _ _ _ => true
  | _ => false

@[simp] theorem setPlayer_board (session : Session World) (slot : Slot)
    (state : PlayerState) :
    (session.setPlayer slot state).board = session.board :=
  rfl

@[simp] theorem mapTally_board (session : Session World)
    (change : Tally → Tally) :
    (session.mapTally change).board = session.board :=
  rfl

@[simp] theorem emitAll_board (session : Session World) (events : List Event) :
    (session.emitAll events).board = session.board :=
  (SameCourse.emitAll (.refl session) events).board

/-- Of two places in a sequence of calls one comes first, or they are the
same. -/
theorem places_cases {first second left right : List (Call World)}
    {one other : Call World}
    (same : first ++ one :: left = second ++ other :: right) :
    (∃ more, second = first ++ one :: more ∧
      left = more ++ other :: right) ∨
    (first = second ∧ one = other ∧ left = right) ∨
    ∃ more, first = second ++ other :: more ∧
      right = more ++ one :: left := by
  rcases List.append_eq_append_iff.mp same with
    ⟨more, longer, rest⟩ | ⟨more, longer, rest⟩
  · cases more with
    | nil =>
        obtain ⟨rfl, rfl⟩ := List.cons.inj rest
        exact .inr (.inl ⟨by rw [longer, List.append_nil], rfl, rfl⟩)
    | cons call more =>
        obtain ⟨rfl, others⟩ := List.cons.inj rest
        exact .inl ⟨more, longer, others⟩
  · cases more with
    | nil =>
        obtain ⟨rfl, rfl⟩ := List.cons.inj rest
        exact .inr (.inl ⟨by rw [longer, List.append_nil], rfl, rfl⟩)
    | cons call more =>
        obtain ⟨rfl, others⟩ := List.cons.inj rest
        exact .inr (.inr ⟨more, longer, others⟩)

variable [GameWorld World]

def perform (session : Session World) : Call World → Session World
  | .register name id => (session.register name id).2
  | .loadRank tree => (session.loadRank tree).2
  | .setPaused paused => session.setPaused paused
  | .setBritishAllies british => session.setBritishAllies british
  | .setMatchId id => session.setMatchId id
  | .changeWorld change => { session with world := change session.world }
  | .receiveEvent => { session with events := session.events.receive.2 }
  | .drainEvents => { session with events := session.events.drain.2 }
  | .connect slot name unique => session.connect slot name unique
  | .disconnect slot => session.disconnect slot
  | .rename slot name => session.rename slot name
  | .messageBegin id subject => session.messageBegin id subject
  | .messageField value => session.messageField value
  | .messageEnd => session.messageEnd
  | .aimTrace shooter hitGroup => session.aimTrace shooter hitGroup
  | .projectileTrace owner projectile className position =>
    session.projectileTrace owner projectile className position
  | .think slot => session.think slot
  | .resetPlayerStats slot => session.resetPlayerStats slot
  | .resetAllStats => session.resetAllStats
  | .flushAllStats => session.flushAllStats
  | .teardown tree => (session.teardown tree).2.2
  | .teardownBackground saver => (session.teardownBackground saver).2

def run (session : Session World) (calls : List (Call World)) : Session World :=
  calls.foldl perform session

theorem run_concat (session : Session World) (calls : List (Call World))
    (call : Call World) :
    session.run (calls ++ [call]) = (session.run calls).perform call :=
  List.foldl_concat _ _ _ _

theorem run_append (session : Session World)
    (calls later : List (Call World)) :
    session.run (calls ++ later) = (session.run calls).run later :=
  List.foldl_append

/-- What entering the present life of a player would put on the board, if there
is anything to enter. -/
def lifeToEnter? (session : Session World) (slot : Slot) : Option LifeEntry :=
  let life := (session.tally.player slot).life.total
  if !session.config.rankBots && GameWorld.isBot session.world slot then none
  else if life.isZero then none
  else
    some
      { name := (session.player slot).name
        unique := session.rankUnique slot
        life := life }

def lifeChanges (session : Session World) (slot : Slot) : List Board.Change :=
  (session.lifeToEnter? slot).toList.map .enter

/-- The changes that a call makes to the board, in order. -/
def boardChanges (session : Session World) : Call World → List Board.Change
  | .loadRank tree =>
    [.load session.config.rankFile (tree.read session.config.rankFile)]
  | .disconnect slot =>
    if (session.player slot).connected then session.lifeChanges slot else []
  | .rename slot name =>
    let state := session.player slot
    if !state.connected || state.name == name then []
    else
      match session.config.rankBy with
      | .name => []
      | .unique => state.rankId.toList.map (.rename · name)
  | .think slot =>
    let due := (session.tally.takeDue slot (GameWorld.now session.world)).1
    if session.isPlaying slot && due.life.isSome then session.lifeChanges slot
    else []
  | .teardown _ | .teardownBackground _ =>
    session.playing.flatMap session.lifeChanges ++
      if session.config.resetRankOnTeardown then [.clear] else []
  | _ => []

theorem applyEnd_board (session : Session World) (action : EndAction)
    (slot : Slot) : (session.applyEnd action slot).board = session.board := by
  by_cases damage : action = .damage
  · subst damage
    simp only [applyEnd, endDamage]
    split <;> simp
  · exact (session.sameCourse_applyEnd damage slot).board

theorem messageEnd_board (session : Session World) :
    session.messageEnd.board = session.board := by
  unfold messageEnd
  dsimp only
  split
  · rfl
  · split
    · rfl
    · exact applyEnd_board _ _ _

theorem projectileTrace_board (session : Session World) (owner : Slot)
    (projectile : EntityHandle) (className : String) (position : Position) :
    (session.projectileTrace owner projectile className position).board =
      session.board := by
  unfold projectileTrace
  split <;> simp

/-- Entering a life changes nothing but the board and the noted row of its
player. -/
theorem flushLife_cases (session : Session World) (slot : Slot) :
    (session.lifeToEnter? slot = none ∧ session.flushLife slot = session) ∨
    ∃ entry kept, session.lifeToEnter? slot = some entry ∧
      session.flushLife slot =
        ({ session with board := session.board.enter entry }).setPlayer slot
          { session.player slot with rankId := kept } := by
  unfold flushLife lifeToEnter?
  dsimp only
  split
  · exact .inl ⟨rfl, rfl⟩
  · split
    · exact .inl ⟨rfl, rfl⟩
    · exact .inr ⟨_, _, rfl, rfl⟩

theorem flushLife_board (session : Session World) (slot : Slot) :
    (session.flushLife slot).board =
      session.board.changes (session.lifeChanges slot) := by
  unfold lifeChanges
  rcases session.flushLife_cases slot with
    ⟨nothing, same⟩ | ⟨entry, kept, something, flushed⟩
  · rw [nothing, same]
    rfl
  · rw [something, flushed]
    rfl

section Parts

variable {α : Type} (part : Session World → α)
  (sameBoard : ∀ (session : Session World) (board : Board),
    part { session with board := board } = part session)
  (samePlayers : ∀ (session : Session World) (slot : Slot)
    (state : PlayerState), part (session.setPlayer slot state) = part session)
  (sameTally : ∀ (session : Session World) (change : Tally → Tally),
    part (session.mapTally change) = part session)

include sameBoard samePlayers

/-- Whatever is read neither from the board nor from the players is left
alone. -/
theorem flushLife_part (session : Session World) (slot : Slot) :
    part (session.flushLife slot) = part session := by
  rcases session.flushLife_cases slot with
    ⟨_, same⟩ | ⟨entry, kept, _, flushed⟩
  · rw [same]
  · rw [flushed, samePlayers, sameBoard]

include sameTally

/-- Closing lives clears them in the tally too. -/
theorem closing_part (session : Session World) (slots : List Slot) :
    part (slots.foldl closeLife session) = part session := by
  induction slots generalizing session with
  | nil => rfl
  | cons slot slots ih =>
      rw [List.foldl_cons, ih, closeLife, sameTally]
      exact flushLife_part part sameBoard samePlayers session slot

theorem applyDue_part (session : Session World) (slot : Slot)
    (due : DueClears) :
    part (session.applyDue slot due) = part session := by
  have flushed := flushLife_part part sameBoard samePlayers session slot
  unfold applyDue
  cases due.life with
  | none =>
      dsimp only
      split
      · exact sameTally _ _
      · rfl
  | some full =>
      dsimp only
      split
      · rw [sameTally, sameTally, flushed]
      · rw [sameTally, flushed]

end Parts

theorem flushLife_tally (session : Session World) (slot : Slot) :
    (session.flushLife slot).tally = session.tally :=
  flushLife_part Session.tally (fun _ _ => rfl) (fun _ _ _ => rfl) session slot

theorem flushLife_config (session : Session World) (slot : Slot) :
    (session.flushLife slot).config = session.config :=
  flushLife_part Session.config (fun _ _ => rfl) (fun _ _ _ => rfl) session
    slot

theorem flushLife_world (session : Session World) (slot : Slot) :
    (session.flushLife slot).world = session.world :=
  flushLife_part Session.world (fun _ _ => rfl) (fun _ _ _ => rfl) session slot

/-- Up to the noted row, entering a life leaves every player alone. -/
theorem flushLife_player (session : Session World) (slot other : Slot) :
    ∃ kept, (session.flushLife slot).player other =
      { session.player other with rankId := kept } := by
  rcases session.flushLife_cases slot with
    ⟨_, same⟩ | ⟨entry, kept, _, flushed⟩
  · exact ⟨(session.player other).rankId, by rw [same]⟩
  · rw [flushed, player_setPlayer]
    split
    · next here => exact ⟨kept, by rw [here]⟩
    · exact ⟨(session.player other).rankId, rfl⟩

theorem flushLife_connected (session : Session World) (slot other : Slot) :
    ((session.flushLife slot).player other).connected =
      (session.player other).connected := by
  obtain ⟨kept, same⟩ := session.flushLife_player slot other
  rw [same]

theorem sameStage_flushLife (session : Session World) (slot : Slot) :
    session.SameStage (session.flushLife slot) where
  config := session.flushLife_config slot
  world := session.flushLife_world slot
  attributor :=
    flushLife_part Session.attributor (fun _ _ => rfl) (fun _ _ _ => rfl)
      session slot
  seat := by
    intro other
    obtain ⟨kept, same⟩ := session.flushLife_player slot other
    rw [seat, seat, same]
    rfl

/-- Taking the due clears leaves the life to be entered. -/
theorem lifeChanges_takeDue (session : Session World) (slot : Slot)
    (now : Float32) :
    (session.mapTally fun tally => (tally.takeDue slot now).2).lifeChanges
      slot = session.lifeChanges slot := by
  simp only [lifeChanges, lifeToEnter?, rankUnique, player, mapTally,
    Tally.life_takeDue]

theorem applyDue_board (session : Session World) (slot : Slot)
    (due : DueClears) :
    (session.applyDue slot due).board =
      if due.life.isSome then (session.flushLife slot).board
      else session.board := by
  unfold applyDue
  cases due.life with
  | none =>
      dsimp only
      split <;> rfl
  | some full =>
      dsimp only
      split <;> rfl

/-- Closing the life of one player leaves the lives of the others to be
entered. -/
theorem lifeToEnter?_closeLife (session : Session World) {slot other : Slot}
    (apart : slot ≠ other) :
    (session.closeLife slot).lifeToEnter? other =
      session.lifeToEnter? other := by
  obtain ⟨kept, same⟩ := session.flushLife_player slot other
  have tally : ((session.closeLife slot).tally.player other).life =
      (session.tally.player other).life := by
    simp only [closeLife, mapTally, flushLife_tally, Tally.restart,
      Tally.player_change_of_ne _ _ apart]
  have state : (session.closeLife slot).player other =
      { session.player other with rankId := kept } := same
  have config : (session.closeLife slot).config = session.config :=
    session.flushLife_config slot
  have world : (session.closeLife slot).world = session.world :=
    session.flushLife_world slot
  simp only [lifeToEnter?, rankUnique, tally, state, config, world]

theorem lifeChanges_closeLife (session : Session World) {slot : Slot}
    {slots : List Slot} (absent : slot ∉ slots) :
    slots.flatMap (session.closeLife slot).lifeChanges =
      slots.flatMap session.lifeChanges := by
  rw [List.flatMap_def, List.flatMap_def]
  apply congrArg List.flatten
  apply List.map_congr_left
  intro other member
  have apart : slot ≠ other := fun same => absent (same ▸ member)
  simp only [lifeChanges, session.lifeToEnter?_closeLife apart]

theorem sameStage_closing (session : Session World) (slots : List Slot) :
    session.SameStage (slots.foldl closeLife session) := by
  induction slots generalizing session with
  | nil => exact .refl session
  | cons slot slots ih =>
      have closed : session.SameStage (session.closeLife slot) :=
        (session.sameStage_flushLife slot).trans
          (SameCourse.mapTally (.refl _) _).toSameStage
      exact closed.trans (ih _)

/-- Closing the lives of some players enters them one after the other. -/
theorem closing_board (session : Session World) {slots : List Slot}
    (distinct : slots.Nodup) :
    (slots.foldl closeLife session).board =
      session.board.changes (slots.flatMap session.lifeChanges) := by
  induction slots generalizing session with
  | nil => rfl
  | cons slot slots ih =>
      obtain ⟨notLater, distinctRest⟩ := List.nodup_cons.mp distinct
      have first : (session.closeLife slot).board =
          session.board.changes (session.lifeChanges slot) :=
        session.flushLife_board slot
      rw [List.foldl_cons, ih _ distinctRest, first,
        session.lifeChanges_closeLife notLater, List.flatMap_cons,
        Board.changes_append]

theorem playing_nodup (session : Session World) : session.playing.Nodup :=
  Slot.nodup_all.filter _

theorem closeMatch_board (session : Session World) (tree : FileTree) :
    session.closeMatch.board =
      session.board.changes (session.boardChanges (.teardown tree)) := by
  have config := (session.sameStage_closing session.playing).config
  have board := session.closing_board session.playing_nodup
  simp only [closeMatch, boardChanges, Board.changes_append, config, board]
  split <;> rfl

/-- Every call changes the board by its changes and in no other way. -/
theorem board_perform (session : Session World) (call : Call World) :
    (session.perform call).board =
      session.board.changes (session.boardChanges call) := by
  cases call with
  | register name id => rfl
  | loadRank tree => rfl
  | setPaused paused => rfl
  | setBritishAllies british => rfl
  | setMatchId id => rfl
  | changeWorld change => rfl
  | receiveEvent => rfl
  | drainEvents => rfl
  | connect slot name unique => rfl
  | disconnect slot =>
      simp only [perform, disconnect, boardChanges]
      split
      · rw [setPlayer_board, flushLife_board]
      · rfl
  | rename slot name =>
      simp only [perform, rename, boardChanges]
      split
      · rfl
      · cases session.config.rankBy with
        | name => rfl
        | unique =>
            cases (session.player slot).rankId with
            | none => rfl
            | some id => rfl
  | messageBegin id subject => rfl
  | messageField value => exact (session.sameGround_messageField value).board
  | messageEnd => exact session.messageEnd_board
  | aimTrace shooter hitGroup => rfl
  | projectileTrace owner projectile className position =>
      exact session.projectileTrace_board _ _ _ _
  | think slot =>
      simp only [perform, think, boardChanges]
      cases session.isPlaying slot with
      | false => rfl
      | true =>
          simp only [Bool.not_true, Bool.false_eq_true, if_false,
            Bool.true_and, (sameCourse_announceScore _ _).board,
            applyDue_board]
          split
          · rw [flushLife_board]
            exact congrArg session.board.changes
              (session.lifeChanges_takeDue slot _)
          · rfl
  | resetPlayerStats slot =>
      exact (session.sameCourse_resetPlayerStats slot).board
  | resetAllStats => exact session.sameCourse_resetAllStats.board
  | flushAllStats => exact session.emitAll_board _
  | teardown tree => exact session.closeMatch_board tree
  | teardownBackground saver => exact session.closeMatch_board .empty

/-- The last call that set something, in a sequence of calls of which none gave
it up since. -/
structure Since (start : Session World)
    (sets gives : Session World → Call World → Prop)
    (calls : List (Call World)) where
  before : List (Call World)
  call : Call World
  between : List (Call World)
  split : calls = before ++ call :: between
  set : sets (start.run before) call
  kept : ∀ first next rest, between = first ++ next :: rest →
    ¬gives (start.run (before ++ call :: first)) next

/-- What stands at the end, and not at the start, was set by some call and not
given up since. -/
theorem exists_since (flag : Session World → Prop) {start : Session World}
    {sets gives : Session World → Call World → Prop} (fresh : ¬flag start)
    (step : ∀ calls call, flag ((start.run calls).perform call) →
      sets (start.run calls) call ∨
      flag (start.run calls) ∧ ¬gives (start.run calls) call)
    {calls : List (Call World)} (stands : flag (start.run calls)) :
    Nonempty (Since start sets gives calls) := by
  induction calls using List.reverseRecOn with
  | nil => exact absurd stands fresh
  | append_singleton calls call ih =>
      rw [run_concat] at stands
      rcases step _ _ stands with set | ⟨stood, keeps⟩
      · exact ⟨
          { before := calls
            call := call
            between := []
            split := rfl
            set := set
            kept := by simp }⟩
      · obtain ⟨since⟩ := ih stood
        have split : calls ++ [call] =
            since.before ++ since.call :: (since.between ++ [call]) := by
          rw [← List.cons_append, ← List.append_assoc, ← since.split]
        refine ⟨
          { since with
            between := since.between ++ [call]
            split := split
            kept := ?_ }⟩
        intro first next rest same
        rcases List.eq_nil_or_concat rest with rfl | ⟨others, last, rfl⟩
        · obtain ⟨rfl, last⟩ := List.append_inj' same rfl
          obtain rfl := List.singleton_inj.mp last
          rw [← since.split]
          exact keeps
        · rw [List.concat_eq_append, ← List.cons_append,
            ← List.append_assoc] at same
          exact since.kept first next others (List.append_inj_left' same rfl)

theorem Since.run_between {start : Session World}
    {sets gives : Session World → Call World → Prop}
    {calls : List (Call World)} (since : Since start sets gives calls) :
    (start.run (since.before ++ [since.call])).run since.between =
      start.run calls := by
  rw [← run_append, List.append_assoc, List.singleton_append, ← since.split]

/-- Where a call gives up whatever the session is, no such call came since. -/
theorem Since.forall_between {start : Session World}
    {sets gives : Session World → Call World → Prop}
    {calls : List (Call World)} (since : Since start sets gives calls)
    {loses : Call World → Prop}
    (given : ∀ session call, loses call → gives session call) :
    ∀ next ∈ since.between, ¬loses next := by
  intro next member lost
  obtain ⟨first, rest, between⟩ := List.append_of_mem member
  exact since.kept first next rest between (given _ next lost)

end Session

end Fragboard.Match
