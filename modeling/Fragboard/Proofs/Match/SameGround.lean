import Fragboard.Proofs.Match.PlayerTables

/-!
# What most of a match leaves alone

Messages, announcements and resets of counters touch tallies, what is noted of a
player, and the reports that are sent.  The ground on which they work stays the
same: the settings, the world, the attribution, the leaderboard, and who sits on
which slot.  Recording damage is the one end of a message that leaves it.  What
they do does not take the message in flight any further either; that is left to
its own calls.
-/

namespace Fragboard.Match

open Message (FieldMeaning FieldValue EndAction)

/-- Whoever is connected, by the disambiguator given on connecting. -/
def PlayerState.seat (state : PlayerState) : Option String :=
  if state.connected then some state.unique else none

namespace Session

variable {World : Type}

def seat (session : Session World) (slot : Slot) : Option String :=
  (session.player slot).seat

/-- Settings, world, attribution and seats are the same. -/
structure SameStage (before after : Session World) : Prop where
  config : after.config = before.config
  world : after.world = before.world
  attributor : after.attributor = before.attributor
  seat : ∀ slot, after.seat slot = before.seat slot

/-- And so is the leaderboard. -/
structure SameGround (before after : Session World) : Prop
    extends before.SameStage after where
  board : after.board = before.board

/-- And so is the message in flight. -/
structure SameCourse (before after : Session World) : Prop
    extends before.SameGround after where
  decoder : after.decoder = before.decoder

theorem SameStage.refl (session : Session World) : session.SameStage session :=
  ⟨rfl, rfl, rfl, fun _ => rfl⟩

theorem SameStage.trans {first second third : Session World}
    (upper : first.SameStage second) (lower : second.SameStage third) :
    first.SameStage third where
  config := lower.config.trans upper.config
  world := lower.world.trans upper.world
  attributor := lower.attributor.trans upper.attributor
  seat := fun slot => (lower.seat slot).trans (upper.seat slot)

theorem SameGround.refl (session : Session World) :
    session.SameGround session :=
  ⟨.refl session, rfl⟩

theorem SameGround.trans {first second third : Session World}
    (upper : first.SameGround second) (lower : second.SameGround third) :
    first.SameGround third :=
  ⟨upper.toSameStage.trans lower.toSameStage, lower.board.trans upper.board⟩

theorem SameGround.of_parts {before after : Session World}
    (config : after.config = before.config)
    (world : after.world = before.world)
    (attributor : after.attributor = before.attributor)
    (players : after.players = before.players)
    (board : after.board = before.board) : before.SameGround after where
  config := config
  world := world
  attributor := attributor
  seat := fun slot =>
    congrArg (fun players => (players.get slot.index).seat) players
  board := board

theorem SameCourse.refl (session : Session World) :
    session.SameCourse session :=
  ⟨.refl session, rfl⟩

theorem SameCourse.trans {first second third : Session World}
    (upper : first.SameCourse second) (lower : second.SameCourse third) :
    first.SameCourse third :=
  ⟨upper.toSameGround.trans lower.toSameGround,
    lower.decoder.trans upper.decoder⟩

section Parts

variable {before after : Session World}

theorem SameStage.setPlayer (same : before.SameStage after) (slot : Slot)
    {state : PlayerState} (seat : state.seat = after.seat slot) :
    before.SameStage (after.setPlayer slot state) where
  config := same.config
  world := same.world
  attributor := same.attributor
  seat := by
    intro other
    rw [← same.seat other, Session.seat, player_setPlayer]
    split
    · next here => rw [← here, seat]
    · rfl

theorem SameCourse.setPlayer (same : before.SameCourse after) (slot : Slot)
    {state : PlayerState} (seat : state.seat = after.seat slot) :
    before.SameCourse (after.setPlayer slot state) :=
  ⟨⟨same.toSameStage.setPlayer slot seat, same.board⟩, same.decoder⟩

theorem SameCourse.mapTally (same : before.SameCourse after)
    (change : Tally → Tally) : before.SameCourse (after.mapTally change) :=
  ⟨⟨⟨same.config, same.world, same.attributor, same.seat⟩, same.board⟩,
    same.decoder⟩

theorem SameCourse.emit (same : before.SameCourse after) (event : Event) :
    before.SameCourse (after.emit event) :=
  ⟨⟨⟨same.config, same.world, same.attributor, same.seat⟩, same.board⟩,
    same.decoder⟩

theorem SameCourse.emitAll (same : before.SameCourse after)
    (events : List Event) : before.SameCourse (after.emitAll events) := by
  induction events generalizing after with
  | nil => exact same
  | cons event events ih => exact ih (same.emit event)

end Parts

theorem sameCourse_setTeamScore (session : Session World)
    (team score : Int32) :
    session.SameCourse (session.setTeamScore team score) := by
  unfold setTeamScore
  split
  · exact .refl session
  · exact ⟨.of_parts rfl rfl rfl rfl rfl, rfl⟩

theorem sameCourse_setAmmo (session : Session World) (slot : Slot)
    (amount : Int32) : session.SameCourse (session.setAmmo slot amount) := by
  unfold setAmmo
  dsimp only
  split
  · exact .mapTally (.refl session) _
  · exact .refl session

theorem sameCourse_resetPlayerStats (session : Session World) (slot : Slot) :
    session.SameCourse (session.resetPlayerStats slot) := by
  unfold resetPlayerStats
  split
  · exact .mapTally (.refl session) _
  · exact .refl session

theorem sameCourse_resetAllStats (session : Session World) :
    session.SameCourse session.resetAllStats := by
  unfold resetAllStats
  induction Slot.all generalizing session with
  | nil => exact .refl session
  | cons slot slots ih =>
      exact (session.sameCourse_resetPlayerStats slot).trans (ih _)

theorem sameCourse_endScopeCheck (session : Session World) (slot : Slot) :
    session.SameCourse (session.endScopeCheck slot) := by
  unfold endScopeCheck
  dsimp only
  split
  · exact .refl session
  · refine .emit ?_ _
    exact .setPlayer (.refl session) slot rfl

variable [GameWorld World]

theorem sameCourse_objectiveScore (session : Session World) (slot : Slot)
    (score : Int32) :
    session.SameCourse (session.objectiveScore slot score) := by
  unfold objectiveScore
  dsimp only
  split
  · exact .refl session
  · split
    · refine .mapTally ?_ _
      exact .setPlayer (.refl session) slot rfl
    · exact .setPlayer (.refl session) slot rfl

theorem sameCourse_noteObject (session : Session World) (slot : Slot) :
    session.SameCourse (session.noteObject slot) := by
  unfold noteObject
  dsimp only
  split
  · exact .setPlayer (.refl session) slot rfl
  · split
    · exact .refl session
    · exact .setPlayer (.refl session) slot rfl

theorem sameCourse_applyField (session : Session World)
    (meaning : FieldMeaning) (subject : Option Slot) (int : Option Int32) :
    session.SameCourse (session.applyField meaning subject int) := by
  cases meaning with
  | scoreValue =>
      simp only [applyField]
      split
      · exact session.sameCourse_objectiveScore _ _
      · exact .refl session
  | roundState =>
      simp only [applyField, scheduleRounds]
      split
      · exact .mapTally (.refl session) _
      · exact .refl session
  | teamScore =>
      simp only [applyField]
      split
      · exact session.sameCourse_setTeamScore _ _
      · exact .refl session
  | ammoAmount =>
      simp only [applyField]
      split
      · exact session.sameCourse_setAmmo _ _
      · exact .refl session
  | fieldOfView =>
      simp only [applyField]
      split
      · exact .setPlayer (.refl session) _ rfl
      · exact .refl session
  | objectName =>
      simp only [applyField]
      split
      · exact session.sameCourse_noteObject _
      · exact .refl session
  | statusPlayer =>
      simp only [applyField]
      split
      · exact .emit (.refl session) _
      · exact .refl session
  | _ => exact ⟨.of_parts rfl rfl rfl rfl rfl, rfl⟩

theorem sameGround_messageField (session : Session World)
    (value : FieldValue) :
    session.SameGround (session.messageField value) := by
  have decoded : session.SameGround
      { session with decoder := session.decoder.field.2 } :=
    .of_parts rfl rfl rfl rfl rfl
  unfold messageField
  dsimp only
  split
  · exact decoded
  · exact decoded.trans (sameCourse_applyField _ _ _ _).toSameGround

theorem sameCourse_endWeaponSwitch (session : Session World) (slot : Slot) :
    session.SameCourse (session.endWeaponSwitch slot) := by
  unfold endWeaponSwitch
  split
  · exact .refl session
  · refine .emitAll ?_ _
    exact ⟨.of_parts rfl rfl rfl rfl rfl, rfl⟩

theorem sameCourse_endObjectToggle (session : Session World) (slot : Slot) :
    session.SameCourse (session.endObjectToggle slot) := by
  unfold endObjectToggle
  dsimp only
  split
  · exact .refl session
  · split
    · exact .setPlayer (.refl session) slot rfl
    · refine .emit ?_ _
      exact .setPlayer (.refl session) slot rfl

theorem sameCourse_applyEnd (session : Session World) {action : EndAction}
    (harmless : action ≠ .damage) (slot : Slot) :
    session.SameCourse (session.applyEnd action slot) := by
  cases action with
  | weaponSwitch => exact session.sameCourse_endWeaponSwitch slot
  | damage => contradiction
  | lifeReset => exact ⟨.of_parts rfl rfl rfl rfl rfl, rfl⟩
  | scopeCheck => exact session.sameCourse_endScopeCheck slot
  | objectToggle => exact session.sameCourse_endObjectToggle slot

theorem sameCourse_announceScore (session : Session World) (slot : Slot) :
    session.SameCourse (session.announceScore slot) := by
  unfold announceScore
  dsimp only
  split
  · refine .emit ?_ _
    exact .setPlayer (.refl session) slot rfl
  · exact .refl session

end Session

end Fragboard.Match
