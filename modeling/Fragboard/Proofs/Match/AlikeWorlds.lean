import Fragboard.Proofs.Match.ScriptedMatch

/-!
# Worlds that look alike

Two worlds are alike if every query gets the same answer in both; what damage
waits in them may differ.  A session does the same in either of them until the
damage for which a message ends is taken (`Session.perform_inWorld`).
-/

namespace Fragboard.Match

open Message (FieldMeaning FieldValue EndAction)

/-- Every query gets the same answer. -/
structure GameWorld.Alike {World : Type} [GameWorld World]
    (world other : World) : Prop where
  now : GameWorld.now other = GameWorld.now world
  entityValid : GameWorld.entityValid other = GameWorld.entityValid world
  playerOf : GameWorld.playerOf other = GameWorld.playerOf world
  playerValid : GameWorld.playerValid other = GameWorld.playerValid world
  isAlive : GameWorld.isAlive other = GameWorld.isAlive world
  team : GameWorld.team other = GameWorld.team world
  isBot : GameWorld.isBot other = GameWorld.isBot world
  equippedWeapon :
    GameWorld.equippedWeapon other = GameWorld.equippedWeapon world
  objectNear : GameWorld.objectNear other = GameWorld.objectNear world
  positionOf : GameWorld.positionOf other = GameWorld.positionOf world

/-- The same damage waits for a player, and the worlds are alike when it is
taken. -/
structure GameWorld.SameDamage {World : Type} [GameWorld World]
    (world other : World) (slot : Slot) : Prop where
  report : (GameWorld.takeDamage other slot).1 =
    (GameWorld.takeDamage world slot).1
  after : GameWorld.Alike (GameWorld.takeDamage world slot).2
    (GameWorld.takeDamage other slot).2

section Attribution

variable {World : Type} [GameWorld World] {world other : World}
  (alike : GameWorld.Alike world other) (tally : Tally)

include alike

theorem trueWeapon_alike : trueWeapon other = trueWeapon world := by
  funext player weapon
  simp only [trueWeapon, alike.equippedWeapon]

theorem weaponSwitch_alike (player : Slot) (record : WeaponRecord) :
    weaponSwitch other tally player record =
      weaponSwitch world tally player record := by
  unfold weaponSwitch
  rw [trueWeapon_alike alike]

theorem culpritOf_alike (attributor : Attributor) (inflictor : EntityHandle) :
    culpritOf attributor other inflictor =
      culpritOf attributor world inflictor := by
  unfold culpritOf
  rw [alike.playerOf, alike.now]

theorem recordDamage_alike (victim : Slot) (culprit : Culprit)
    (amount : Int32) :
    recordDamage other tally victim culprit amount =
      recordDamage world tally victim culprit amount := by
  have teams : areTeammates other = areTeammates world := by
    funext attacker victim
    simp only [areTeammates, alike.team]
  have blamed : blame other tally victim = blame world tally victim := by
    funext culprit
    cases culprit with
    | shooter player => simp only [blame, trueWeapon_alike alike]
    | sender player weapon => rfl
    | nobody => rfl
  unfold recordDamage
  rw [teams, blamed, alike.isAlive]

end Attribution

namespace Session

variable {World : Type}

/-- The same session in another world. -/
def inWorld (session : Session World) (world : World) : Session World :=
  { session with world := world }

@[simp] theorem world_inWorld (session : Session World) (world : World) :
    (session.inWorld world).world = world :=
  rfl

theorem emitAll_inWorld (session : Session World) (world : World)
    (events : List Event) :
    (session.inWorld world).emitAll events =
      (session.emitAll events).inWorld world :=
  List.foldl_hom (inWorld · world) fun _ _ => rfl

theorem resetPlayerStats_inWorld (session : Session World) (world : World)
    (slot : Slot) :
    (session.inWorld world).resetPlayerStats slot =
      (session.resetPlayerStats slot).inWorld world := by
  simp only [resetPlayerStats, apply_ite (inWorld · world)]
  rfl

theorem resetAllStats_inWorld (session : Session World) (world : World) :
    (session.inWorld world).resetAllStats =
      session.resetAllStats.inWorld world :=
  List.foldl_hom (inWorld · world) fun session slot =>
    session.resetPlayerStats_inWorld world slot

theorem setTeamScore_inWorld (session : Session World) (world : World)
    (team score : Int32) :
    (session.inWorld world).setTeamScore team score =
      (session.setTeamScore team score).inWorld world := by
  have same : (session.inWorld world).teamScores = session.teamScores := rfl
  simp only [setTeamScore, same]
  cases session.teamScores.set? team score <;> rfl

theorem setAmmo_inWorld (session : Session World) (world : World)
    (slot : Slot) (amount : Int32) :
    (session.inWorld world).setAmmo slot amount =
      (session.setAmmo slot amount).inWorld world := by
  simp only [setAmmo, apply_ite (inWorld · world)]
  rfl

theorem endScopeCheck_inWorld (session : Session World) (world : World)
    (slot : Slot) :
    (session.inWorld world).endScopeCheck slot =
      (session.endScopeCheck slot).inWorld world := by
  simp only [endScopeCheck, apply_ite (inWorld · world)]
  rfl

variable [GameWorld World] {session : Session World} {other : World}

theorem waitingBlow?_alike {world : World} {slot : Slot}
    (same : GameWorld.SameDamage world other slot) :
    waitingBlow? other slot =
      (waitingBlow? world slot).map fun blow =>
        { blow with world := (GameWorld.takeDamage other slot).2 } := by
  simp only [waitingBlow?, same.report, same.after.entityValid]
  cases (GameWorld.takeDamage world slot).1 with
  | none => rfl
  | some report =>
      rw [Option.bind_some, Option.bind_some]
      split <;> rfl

theorem endDamage_inWorld {slot : Slot}
    (unpaused : session.config.paused = false)
    (same : GameWorld.SameDamage session.world other slot) :
    (session.inWorld other).endDamage slot =
      (session.endDamage slot).inWorld
        (GameWorld.takeDamage other slot).2 := by
  have running : (session.inWorld other).config.paused = false := unpaused
  have waiting := waitingBlow?_alike same
  rw [endDamage, if_neg (by simp [running]), endDamage,
    if_neg (by simp [unpaused]), ← emitAll_inWorld]
  simp only [resolveDamage_eq, world_inWorld, waiting]
  cases found : waitingBlow? session.world slot with
  | none => rfl
  | some blow =>
      obtain ⟨_, world, _⟩ := waitingBlow?_cases found
      have after : GameWorld.Alike blow.world
          (GameWorld.takeDamage other slot).2 := world ▸ same.after
      simp only [Option.map_some, culpritOf_alike after,
        recordDamage_alike after]
      rfl

section Alike

variable (alike : GameWorld.Alike session.world other)

include alike

theorem isPlaying_inWorld :
    (session.inWorld other).isPlaying = session.isPlaying := by
  funext slot
  simp only [isPlaying, world_inWorld, alike.playerValid]
  rfl

theorem playing_inWorld :
    (session.inWorld other).playing = session.playing := by
  rw [playing, isPlaying_inWorld alike, playing]

theorem flushLife_inWorld (slot : Slot) :
    (session.inWorld other).flushLife slot =
      (session.flushLife slot).inWorld other := by
  simp only [flushLife, world_inWorld, alike.isBot, apply_ite (inWorld · other)]
  rfl

theorem liveSubject_inWorld :
    (session.inWorld other).liveSubject = session.liveSubject := by
  funext subject
  simp only [liveSubject, isPlaying_inWorld alike, world_inWorld,
    alike.entityValid]
  rfl

theorem objectiveScore_inWorld (slot : Slot) (score : Int32) :
    (session.inWorld other).objectiveScore slot score =
      (session.objectiveScore slot score).inWorld other := by
  simp only [objectiveScore, world_inWorld, alike.now,
    apply_ite (inWorld · other)]
  rfl

theorem scheduleRounds_inWorld :
    (session.inWorld other).scheduleRounds =
      session.scheduleRounds.inWorld other := by
  simp only [scheduleRounds, playing_inWorld alike, world_inWorld, alike.now]
  rfl

theorem noteObject_inWorld (slot : Slot) :
    (session.inWorld other).noteObject slot =
      (session.noteObject slot).inWorld other := by
  simp only [noteObject, world_inWorld, alike.objectNear,
    apply_ite (inWorld · other)]
  cases GameWorld.objectNear session.world slot <;> rfl

theorem applyField_inWorld (meaning : FieldMeaning) (subject : Option Slot)
    (int : Option Int32) :
    (session.inWorld other).applyField meaning subject int =
      (session.applyField meaning subject int).inWorld other := by
  cases meaning with
  | scoreValue =>
      have scorer : (session.inWorld other).draft.scorePlayer =
          session.draft.scorePlayer := rfl
      simp only [applyField, scorer]
      cases session.draft.scorePlayer with
      | none => rfl
      | some slot =>
          cases int with
          | none => rfl
          | some score => exact objectiveScore_inWorld alike slot score
  | roundState =>
      simp only [applyField, scheduleRounds_inWorld alike,
        apply_ite (inWorld · other)]
  | teamScore =>
      cases int with
      | none => rfl
      | some score => exact session.setTeamScore_inWorld other _ score
  | ammoAmount =>
      cases subject with
      | none => rfl
      | some slot =>
          cases int with
          | none => rfl
          | some amount => exact session.setAmmo_inWorld other slot amount
  | fieldOfView =>
      cases subject <;> cases int <;> rfl
  | objectName =>
      cases subject with
      | none => rfl
      | some slot => exact noteObject_inWorld alike slot
  | statusPlayer =>
      simp only [applyField]
      cases int.bind Slot.ofNumber? <;> rfl
  | _ => rfl

theorem messageField_inWorld (value : FieldValue) :
    (session.inWorld other).messageField value =
      (session.messageField value).inWorld other := by
  let decoded : Session World :=
    { session with decoder := session.decoder.field.2 }
  have same : (session.inWorld other).decoder = session.decoder := rfl
  simp only [messageField, same]
  cases session.decoder.field.1 with
  | none => rfl
  | some call =>
      have subject : (decoded.inWorld other).liveSubject =
          decoded.liveSubject :=
        liveSubject_inWorld alike
      have alikeDecoded : GameWorld.Alike decoded.world other := alike
      have applied := applyField_inWorld alikeDecoded call.meaning
        (decoded.liveSubject call.subject) value.asInt
      rw [← subject] at applied
      rw [← subject]
      exact applied

theorem endWeaponSwitch_inWorld (slot : Slot) :
    (session.inWorld other).endWeaponSwitch slot =
      (session.endWeaponSwitch slot).inWorld other := by
  have switched := weaponSwitch_alike alike session.tally slot
    session.draft.record
  simp only [endWeaponSwitch, world_inWorld, apply_ite (inWorld · other),
    ← emitAll_inWorld, ← switched]
  rfl

theorem endObjectToggle_inWorld (slot : Slot) :
    (session.inWorld other).endObjectToggle slot =
      (session.endObjectToggle slot).inWorld other := by
  have same : (session.inWorld other).player slot = session.player slot := rfl
  simp only [endObjectToggle, world_inWorld, alike.entityValid,
    alike.positionOf, apply_ite (inWorld · other), same]
  cases (session.player slot).object.filter
    (GameWorld.entityValid session.world) <;> rfl

theorem applyEnd_inWorld {action : EndAction} (harmless : action ≠ .damage)
    (slot : Slot) :
    (session.inWorld other).applyEnd action slot =
      (session.applyEnd action slot).inWorld other := by
  cases action with
  | weaponSwitch => exact endWeaponSwitch_inWorld alike slot
  | damage => contradiction
  | lifeReset =>
      simp only [applyEnd, endLifeReset, world_inWorld, alike.now]
      rfl
  | scopeCheck => exact session.endScopeCheck_inWorld other slot
  | objectToggle => exact endObjectToggle_inWorld alike slot

theorem damaged?_inWorld :
    (session.inWorld other).damaged? = session.damaged? := by
  simp only [damaged?, liveSubject_inWorld alike]
  rfl

theorem messageEnd_inWorld_of_undamaged (undamaged : session.damaged? = none) :
    (session.inWorld other).messageEnd = session.messageEnd.inWorld other := by
  let closed : Session World :=
    { session with
      decoder := session.decoder.finish.2
      subjectEntity := none }
  have same : (session.inWorld other).decoder = session.decoder := rfl
  simp only [messageEnd, same, liveSubject_inWorld alike]
  cases ended : session.decoder.finish.1 with
  | none => rfl
  | some call =>
      dsimp only
      cases subject : session.liveSubject call.subject with
      | none => rfl
      | some slot =>
          by_cases damage : call.meaning = .damage
          · have paused : session.config.paused = true := by
              simpa [damaged?, ended, damage, subject] using undamaged
            have rest (idle : Session World)
                (still : idle.config.paused = true) :
                idle.applyEnd call.meaning slot = idle := by
              rw [damage, applyEnd, endDamage, if_pos still]
            exact (rest (closed.inWorld other) paused).trans
              (congrArg (inWorld · other) (rest closed paused)).symm
          · have alikeClosed : GameWorld.Alike closed.world other := alike
            exact applyEnd_inWorld alikeClosed damage slot

theorem messageEnd_inWorld_of_damaged {victim : Slot}
    (damaged : session.damaged? = some victim)
    (same : GameWorld.SameDamage session.world other victim) :
    (session.inWorld other).messageEnd =
      session.messageEnd.inWorld (GameWorld.takeDamage other victim).2 := by
  let closed : Session World :=
    { session with
      decoder := session.decoder.finish.2
      subjectEntity := none }
  obtain ⟨unpaused, ended⟩ := messageEnd_of_damaged damaged
  obtain ⟨_, endedThere⟩ := messageEnd_of_damaged
    ((damaged?_inWorld alike).trans damaged)
  rw [ended, endedThere]
  have sameClosed : GameWorld.SameDamage closed.world other victim := same
  have running : closed.config.paused = false := unpaused
  exact endDamage_inWorld running sameClosed

theorem projectileTrace_inWorld (owner : Slot) (projectile : EntityHandle)
    (className : String) (position : Position) :
    (session.inWorld other).projectileTrace owner projectile className
        position =
      (session.projectileTrace owner projectile className position).inWorld
        other := by
  simp only [projectileTrace, isPlaying_inWorld alike, world_inWorld,
    alike.now, apply_ite (inWorld · other), ← emitAll_inWorld]
  rfl

theorem applyDue_inWorld (slot : Slot) (due : DueClears) :
    (session.inWorld other).applyDue slot due =
      (session.applyDue slot due).inWorld other := by
  unfold applyDue
  cases due.life with
  | none => cases due.round <;> rfl
  | some full =>
      simp only [flushLife_inWorld alike]
      cases due.round <;> rfl

theorem announceScore_inWorld (slot : Slot) :
    (session.inWorld other).announceScore slot =
      (session.announceScore slot).inWorld other := by
  simp only [announceScore, world_inWorld, alike.now,
    apply_ite (inWorld · other)]
  rfl

theorem think_inWorld (slot : Slot) :
    (session.inWorld other).think slot =
      (session.think slot).inWorld other := by
  let now := GameWorld.now session.world
  let polled := session.mapTally fun tally => (tally.takeDue slot now).2
  let due := (session.tally.takeDue slot now).1
  have alikePolled : GameWorld.Alike polled.world other := alike
  have carriedOut := applyDue_inWorld alikePolled slot due
  have settled : GameWorld.Alike (polled.applyDue slot due).world other := by
    rw [(polled.sameStage_applyDue slot due).world]
    exact alike
  have announced := announceScore_inWorld settled slot
  rw [← carriedOut] at announced
  simp only [think, isPlaying_inWorld alike, world_inWorld, alike.now,
    apply_ite (inWorld · other)]
  exact congrArg (ite _ _) announced

theorem disconnect_inWorld (slot : Slot) :
    (session.inWorld other).disconnect slot =
      (session.disconnect slot).inWorld other := by
  simp only [disconnect, flushLife_inWorld alike, apply_ite (inWorld · other)]
  rfl

omit alike in
theorem closing_inWorld (alike : GameWorld.Alike session.world other)
    (slots : List Slot) :
    slots.foldl closeLife (session.inWorld other) =
      (slots.foldl closeLife session).inWorld other := by
  induction slots generalizing session with
  | nil => rfl
  | cons slot slots ih =>
      have first : (session.inWorld other).closeLife slot =
          (session.closeLife slot).inWorld other := by
        rw [closeLife, flushLife_inWorld alike]
        rfl
      have still : GameWorld.Alike (session.closeLife slot).world other := by
        rw [closeLife, mapTally, flushLife_world]
        exact alike
      rw [List.foldl_cons, first, ih still]
      rfl

theorem closeMatch_inWorld :
    (session.inWorld other).closeMatch = session.closeMatch.inWorld other := by
  unfold closeMatch
  rw [playing_inWorld alike, closing_inWorld alike]
  rfl

/-- A session does the same in alike worlds, unless damage is taken. -/
theorem perform_inWorld {call : Call World} (own : call.isOwn = true)
    (undamaged : call = .messageEnd → session.damaged? = none) :
    (session.inWorld other).perform call =
      (session.perform call).inWorld other := by
  cases call with
  | changeWorld change => contradiction
  | messageEnd => exact messageEnd_inWorld_of_undamaged alike (undamaged rfl)
  | messageBegin id subject =>
      simp only [perform, messageBegin, world_inWorld, alike.playerOf]
      rfl
  | messageField value => exact messageField_inWorld alike value
  | projectileTrace owner projectile className position =>
      exact projectileTrace_inWorld alike owner projectile className position
  | think slot => exact think_inWorld alike slot
  | disconnect slot => exact disconnect_inWorld alike slot
  | register name id => rfl
  | rename slot name =>
      have same : (session.inWorld other).config = session.config := rfl
      simp only [perform, rename, same, apply_ite (inWorld · other)]
      cases session.config.rankBy <;> rfl
  | resetPlayerStats slot => exact session.resetPlayerStats_inWorld other slot
  | resetAllStats => exact session.resetAllStats_inWorld other
  | flushAllStats =>
      simp only [perform, flushAllStats, playing_inWorld alike]
      exact session.emitAll_inWorld other _
  | teardown tree => exact closeMatch_inWorld alike
  | teardownBackground saver => exact closeMatch_inWorld alike
  | _ => rfl

end Alike

theorem sent_inWorld {after : World} {call : Call World}
    (performed : (session.inWorld other).perform call =
      (session.perform call).inWorld after) :
    (session.inWorld other).sent call = session.sent call := by
  cases leaves : call.takesEvents with
  | true =>
      cases call with
      | receiveEvent => simp only [sent]
      | drainEvents => simp only [sent]
      | _ => exact absurd leaves Bool.false_ne_true
  | false =>
      have here : (session.perform call).events.queued =
          session.events.queued ++ session.sent call :=
        session.sends_perform leaves
      have there : ((session.inWorld other).perform call).events.queued =
          session.events.queued ++ (session.inWorld other).sent call :=
        (session.inWorld other).sends_perform leaves
      rw [performed] at there
      exact List.append_cancel_left (there.symm.trans here)

end Session

end Fragboard.Match
