import Fragboard.Match.Attribution
import Fragboard.Match.Config
import Fragboard.Message.Decoder
import Fragboard.Rank.Saver

/-!
# A match

A `Session` follows one match: it decodes the engine's messages, attributes what
they report, keeps every player's tally, and enters each finished life on the
leaderboard.

A life is entered exactly when its counters are cleared: when a scheduled clear
comes due, when the player disconnects, and when the match ends.
-/

namespace Fragboard.Match

open Message (Decoder EndAction FieldMeaning FieldValue MessageKind Registry)
open Rank (Board RankError RankId Row Saver)
open Storage (FileTree FilePath)

def teamAllies : Int32 := 1

def teamAxis : Int32 := 2

/-- The longest match identity, in characters. -/
def longestMatchId : Nat := 64

/-- What a session knows about a player. -/
structure PlayerState where
  connected : Bool := false
  name : String := ""
  unique : String := ""
  rankId : Option RankId := none
  savedScore : Int32 := 0
  /-- The latest change of the score. -/
  lastDelta : Int32 := 0
  /-- When the change is to be announced. -/
  announceAt : Option Float32 := none
  fieldOfView : Int32 := 0
  zoomed : Bool := false
  carrying : Bool := false
  object : Option EntityHandle := none
  /-- The end of the present message takes up or drops the object. -/
  objectForward : Bool := false
deriving DecidableEq

/-- What earlier fields of the present message said. -/
structure MessageDraft where
  record : WeaponRecord := {}
  scorePlayer : Option Slot := none
  teamIndex : Int32 := 0
  ammoSlot : Int32 := 0
deriving DecidableEq

structure TeamScores where
  allies : Int32 := 0
  axis : Int32 := 0
deriving DecidableEq

namespace TeamScores

def get? (scores : TeamScores) (team : Int32) : Option Int32 :=
  if team = teamAllies then some scores.allies
  else if team = teamAxis then some scores.axis
  else none

def set? (scores : TeamScores) (team score : Int32) : Option TeamScores :=
  if team = teamAllies then some { scores with allies := score }
  else if team = teamAxis then some { scores with axis := score }
  else none

end TeamScores

structure Session (World : Type) where
  config : Config
  world : World
  decoder : Decoder
  attributor : Attributor
  tally : Tally
  board : Board
  events : Channel Event
  players : Roster PlayerState
  draft : MessageDraft
  /-- The entity at which the present message is aimed. -/
  subjectEntity : Option EntityHandle
  teamScores : TeamScores
  matchId : String

namespace Session

variable {World : Type}

def new (config : Config) (world : World) (points : PointTable) :
    Session World :=
  { config := config
    world := world
    decoder := Decoder.new Registry.empty
    attributor := { rocketWindow := config.rocketWindow }
    tally := Tally.new points
    board := Board.empty config.rankCapacity points
    events := {}
    players := Cells.fill {}
    draft := {}
    subjectEntity := none
    teamScores := {}
    matchId := "" }

def player (session : Session World) (slot : Slot) : PlayerState :=
  session.players.get slot.index

def setPlayer (session : Session World) (slot : Slot) (state : PlayerState) :
    Session World :=
  { session with players := session.players.set slot.index state }

def emit (session : Session World) (event : Event) : Session World :=
  { session with events := session.events.send event }

def emitAll (session : Session World) (events : List Event) : Session World :=
  events.foldl emit session

def mapTally (session : Session World) (change : Tally → Tally) :
    Session World :=
  { session with tally := change session.tally }

/-- Gives an engine message its number. -/
def register (session : Session World) (name : String) (id : Int32) :
    Except Message.BindError MessageKind × Session World :=
  let (result, registry) := session.decoder.registry.bind name id
  (result,
    { session with decoder := { session.decoder with registry := registry } })

/-- Loads the rank file of the settings and counts its rows; a file that is
missing or rejected leaves the leaderboard empty. -/
def loadRank (session : Session World) (tree : FileTree) :
    Nat × Session World :=
  let (result, board) := session.board.load tree session.config.rankFile
  let count :=
    match result with
    | .ok count => count
    | .error _ => 0
  (count, { session with board := board })

def setPaused (session : Session World) (paused : Bool) : Session World :=
  { session with config := { session.config with paused := paused } }

def setBritishAllies (session : Session World) (british : Bool) :
    Session World :=
  { session with
    attributor := { session.attributor with britishAllies := british } }

def setMatchId (session : Session World) (id : String) : Session World :=
  { session with matchId := String.ofList (id.toList.take longestMatchId) }

/-- The disambiguator by which the rows of a player are told apart. -/
def rankUnique (session : Session World) (slot : Slot) : Option String :=
  match session.config.rankBy with
  | .name => none
  | .unique => some (session.player slot).unique

variable [GameWorld World]

/-- Enters the present life of a player on the leaderboard.  Bots may be left
out, and a life in which nothing was counted always is. -/
def flushLife (session : Session World) (slot : Slot) : Session World :=
  let life := (session.tally.player slot).life.total
  if !session.config.rankBots && GameWorld.isBot session.world slot then session
  else if life.isZero then session
  else
    let state := session.player slot
    let (id, board) :=
      session.board.findOrCreate state.name (session.rankUnique slot)
    let (position, board) := board.update id life
    let kept := if position.isSome then some id else none
    ({ session with board := board }).setPlayer slot
      { state with rankId := kept }

def isPlaying (session : Session World) (slot : Slot) : Bool :=
  (session.player slot).connected && GameWorld.playerValid session.world slot

def playing (session : Session World) : List Slot :=
  Slot.all.filter session.isPlaying

def connect (session : Session World) (slot : Slot) (name unique : String) :
    Session World :=
  let state : PlayerState :=
    { connected := true, name := name, unique := unique }
  (session.setPlayer slot state).mapTally (·.resetPlayer slot name)

/-- Enters the player's life on the leaderboard and forgets the player. -/
def disconnect (session : Session World) (slot : Slot) : Session World :=
  if (session.player slot).connected then
    (session.flushLife slot).setPlayer slot {}
  else
    session

/-- Gives a player another name.  Where rows are told apart by name, later
lives go to the row of the new name; otherwise the row is renamed. -/
def rename (session : Session World) (slot : Slot) (name : String) :
    Session World :=
  let state := session.player slot
  if !state.connected || state.name == name then session
  else
    let renamed := session.mapTally (·.setName slot name)
    match session.config.rankBy with
    | .name => renamed.setPlayer slot { state with name := name, rankId := none }
    | .unique =>
      let board :=
        match state.rankId with
        | some id => (session.board.rename? id name).getD session.board
        | none => session.board
      ({ renamed with board := board }).setPlayer slot
        { state with name := name }

/-- Starts a message, aimed at an entity or at all players. -/
def messageBegin (session : Session World) (id : Int32)
    (subject : Option EntityHandle) : Session World :=
  let slot := subject.bind (GameWorld.playerOf session.world)
  { session with
    subjectEntity := subject
    draft := {}
    decoder := session.decoder.start id slot }

/-- The subject of a call, while its entity exists and it is in the game. -/
def liveSubject (session : Session World) (subject : Option Slot) :
    Option Slot :=
  match session.subjectEntity with
  | none => none
  | some entity =>
    subject.filter fun slot =>
      GameWorld.entityValid session.world entity && session.isPlaying slot

def draftRecord (session : Session World)
    (change : WeaponRecord → WeaponRecord) : Session World :=
  { session with
    draft := { session.draft with record := change session.draft.record } }

/-- Takes in a player's objective score.  Its change against the score before
counts as points and is announced later; while the match is paused the score is
only noted. -/
def objectiveScore (session : Session World) (slot : Slot) (score : Int32) :
    Session World :=
  let state := session.player slot
  if !state.connected then session
  else
    let delta := score - state.savedScore
    let noted := { state with lastDelta := delta, savedScore := score }
    if delta ≠ 0 ∧ !session.config.paused then
      let due := GameWorld.now session.world + session.config.scoreNotifyDelay
      (session.setPlayer slot { noted with announceAt := some due }).mapTally
        (·.awardObjective slot delta)
    else
      session.setPlayer slot noted

def scheduleRounds (session : Session World) : Session World :=
  let due := GameWorld.now session.world + session.config.resetDelay
  session.mapTally fun tally =>
    session.playing.foldl (fun tally slot => tally.scheduleRound slot due) tally

def setTeamScore (session : Session World) (team score : Int32) :
    Session World :=
  match session.teamScores.set? team score with
  | none => session
  | some scores =>
    ({ session with teamScores := scores }).emit (.teamScore team score)

def setAmmo (session : Session World) (slot : Slot) (amount : Int32) :
    Session World :=
  let ammoSlot := session.draft.ammoSlot.toInt
  if 0 ≤ ammoSlot ∧ ammoSlot < 256 then
    session.mapTally (·.setAmmo slot (UInt8.ofNat ammoSlot.toNat) amount)
  else
    session

/-- Notes the object that the end of the message will take up or drop: the one
carried, or else one within reach. -/
def noteObject (session : Session World) (slot : Slot) : Session World :=
  let state := session.player slot
  if state.carrying then
    session.setPlayer slot { state with objectForward := true }
  else
    match GameWorld.objectNear session.world slot with
    | none => session
    | some object =>
      session.setPlayer slot
        { state with object := some object, objectForward := true }

def applyField (session : Session World) (meaning : FieldMeaning)
    (subject : Option Slot) (int : Option Int32) : Session World :=
  match meaning with
  | .switchFlag =>
    session.draftRecord fun record =>
      { record with active := int.any (· != 0) }
  | .weaponNumber =>
    session.draftRecord fun record => { record with weapon := int.getD (-1) }
  | .clip =>
    session.draftRecord fun record => { record with clip := int.getD (-1) }
  | .scorePlayer =>
    { session with
      draft := { session.draft with scorePlayer := int.bind Slot.ofNumber? } }
  | .scoreValue =>
    match session.draft.scorePlayer, int with
    | some slot, some score => session.objectiveScore slot score
    | _, _ => session
  | .roundState => if int = some 1 then session.scheduleRounds else session
  | .teamIndex =>
    { session with draft := { session.draft with teamIndex := int.getD 0 } }
  | .teamScore =>
    match int with
    | some score => session.setTeamScore session.draft.teamIndex score
    | none => session
  | .ammoSlot =>
    { session with draft := { session.draft with ammoSlot := int.getD (-1) } }
  | .ammoAmount =>
    match subject, int with
    | some slot, some amount => session.setAmmo slot amount
    | _, _ => session
  | .fieldOfView =>
    match subject, int with
    | some slot, some value =>
      session.setPlayer slot { session.player slot with fieldOfView := value }
    | _, _ => session
  | .objectName =>
    match subject with
    | some slot => session.noteObject slot
    | none => session
  | .statusPlayer =>
    match int.bind Slot.ofNumber? with
    | some slot => session.emit (.spawn slot)
    | none => session

def messageField (session : Session World) (value : FieldValue) :
    Session World :=
  let (call, decoder) := session.decoder.field
  let session := { session with decoder := decoder }
  match call with
  | none => session
  | some call =>
    session.applyField call.meaning (session.liveSubject call.subject)
      value.asInt

def endWeaponSwitch (session : Session World) (slot : Slot) : Session World :=
  if session.config.paused then session
  else
    let (event, tally) :=
      weaponSwitch session.world session.tally slot session.draft.record
    ({ session with tally := tally }).emitAll event.toList

def endDamage (session : Session World) (slot : Slot) : Session World :=
  if session.config.paused then session
  else
    let scene : Scene World :=
      { world := session.world
        tally := session.tally
        attributor := session.attributor }
    let (resolution, scene) := resolveDamage scene slot
    let resolved :=
      { session with
        world := scene.world
        tally := scene.tally
        attributor := scene.attributor }
    resolved.emitAll (resolution.elim [] Resolution.events)

def endLifeReset (session : Session World) (slot : Slot) : Session World :=
  let due := GameWorld.now session.world + session.config.resetDelay
  session.mapTally (·.scheduleLife slot due false)

/-- A field of view with which nobody looks through a scope. -/
def isPlainView (fieldOfView : Int32) : Bool :=
  fieldOfView == 0 || fieldOfView == 90

def endScopeCheck (session : Session World) (slot : Slot) : Session World :=
  let state := session.player slot
  let zoomed := !isPlainView state.fieldOfView
  if zoomed = state.zoomed then session
  else
    (session.setPlayer slot { state with zoomed := zoomed }).emit
      (.scope slot zoomed state.fieldOfView)

/-- Takes up or drops the object that the message's field noted.  It is reported
while the object exists. -/
def endObjectToggle (session : Session World) (slot : Slot) : Session World :=
  let state := session.player slot
  if !state.objectForward then session
  else
    let carrying := !state.carrying
    let toggled := session.setPlayer slot
      { state with
        objectForward := false
        carrying := carrying
        object := if carrying then state.object else none }
    match state.object.filter (GameWorld.entityValid session.world) with
    | none => toggled
    | some object =>
      let position :=
        (GameWorld.positionOf session.world object).getD Position.origin
      toggled.emit (.objectPickup slot object position carrying)

def applyEnd (session : Session World) (action : EndAction) (slot : Slot) :
    Session World :=
  match action with
  | .weaponSwitch => session.endWeaponSwitch slot
  | .damage => session.endDamage slot
  | .lifeReset => session.endLifeReset slot
  | .scopeCheck => session.endScopeCheck slot
  | .objectToggle => session.endObjectToggle slot

def messageEnd (session : Session World) : Session World :=
  let (call, decoder) := session.decoder.finish
  let ended := { session with decoder := decoder }
  match call with
  | none => ended
  | some call =>
    let closed := { ended with subjectEntity := none }
    match session.liveSubject call.subject with
    | none => closed
    | some slot => closed.applyEnd call.meaning slot

def aimTrace (session : Session World) (shooter : Slot) (hitGroup : Int32) :
    Session World :=
  session.mapTally fun tally => Match.aimTrace tally shooter hitGroup

def projectileTrace (session : Session World) (owner : Slot)
    (projectile : EntityHandle) (className : String) (position : Position) :
    Session World :=
  if session.config.paused || !session.isPlaying owner then session
  else
    let (event, tally, attributor) :=
      Match.projectileTrace session.attributor (GameWorld.now session.world)
        session.tally owner projectile className position
    ({ session with tally := tally, attributor := attributor }).emitAll
      event.toList

/-- Carries out the clears of a player that have come due.  The life is entered
on the leaderboard before it is cleared. -/
def applyDue (session : Session World) (slot : Slot) (due : DueClears) :
    Session World :=
  let cleared :=
    match due.life with
    | some full => (session.flushLife slot).mapTally (·.restart slot full)
    | none => session
  if due.round then cleared.mapTally (·.clearRound slot) else cleared

/-- Announces a change of score whose time has come. -/
def announceScore (session : Session World) (slot : Slot) : Session World :=
  let state := session.player slot
  let now := GameWorld.now session.world
  if state.announceAt.any fun due => due ≤ now then
    (session.setPlayer slot { state with announceAt := none }).emit
      (.score slot state.lastDelta state.savedScore)
  else
    session

/-- Carries out all that has come due for a player in the game. -/
def think (session : Session World) (slot : Slot) : Session World :=
  if !session.isPlaying slot then session
  else
    let (due, tally) :=
      session.tally.takeDue slot (GameWorld.now session.world)
    (({ session with tally := tally }).applyDue slot due).announceScore slot

def stats (session : Session World) (slot : Slot) (scope : Scope)
    (filter : Filter) : Option StatBlock :=
  if (session.player slot).connected then
    session.tally.query slot scope filter
  else
    none

def duel? (session : Session World) (slot : Slot) (filter : Filter) :
    Option Duel :=
  if (session.player slot).connected then session.tally.duel? slot filter
  else none

/-- The leaderboard row of a connected player and its position. -/
def rankStats (session : Session World) (slot : Slot) : Option (Row × Nat) :=
  let state := session.player slot
  if state.connected then do
    let id ← session.board.find? state.name (session.rankUnique slot)
    let row ← session.board.get? id
    let position ← session.board.positionOf? id
    some (row, position)
  else
    none

/-- The row at a position, and whether another follows it. -/
def rankRowAt (session : Session World) (position : Nat) :
    Option (Row × Bool) :=
  (session.board.rowAt? position).map fun row =>
    (row, position < session.board.rows.length)

def resetPlayerStats (session : Session World) (slot : Slot) :
    Session World :=
  if (session.player slot).connected then
    session.mapTally (·.restart slot true)
  else
    session

def resetAllStats (session : Session World) : Session World :=
  Slot.all.foldl resetPlayerStats session

/-- Asks for the statistics of every player in the game to be stored. -/
def flushAllStats (session : Session World) : Session World :=
  session.emitAll (session.playing.map Event.statsFlush)

/-- Enters the life of a player on the leaderboard and clears it, so that it is
not entered again. -/
def closeLife (session : Session World) (slot : Slot) : Session World :=
  (session.flushLife slot).mapTally (·.restart slot false)

/-- Closes the lives of all players in the game, empties the leaderboard where
the settings say so, and forgets all projectiles. -/
def closeMatch (session : Session World) : Session World :=
  let closed := session.playing.foldl closeLife session
  let board :=
    if session.config.resetRankOnTeardown then closed.board.clear
    else closed.board
  { closed with
    board := board
    attributor := closed.attributor.clearProjectiles }

def teardown (session : Session World) (tree : FileTree) :
    Except RankError Unit × FileTree × Session World :=
  let closed := session.closeMatch
  let (written, result) := closed.board.save tree closed.config.rankFile
  (result, written, closed)

/-- Ends the match and leaves writing the leaderboard to a saver. -/
def teardownBackground (session : Session World) (saver : Saver) :
    Saver × Session World :=
  let closed := session.closeMatch
  (saver.submit closed.board closed.config.rankFile, closed)

end Session

end Fragboard.Match
