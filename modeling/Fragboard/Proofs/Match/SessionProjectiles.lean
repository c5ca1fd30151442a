import Fragboard.Proofs.Match.FlightLog
import Fragboard.Proofs.Match.SessionCalls

/-!
# Damage and projectiles in the calls of a session

The end of a message may record damage; `Session.blow?` is that damage and
`Session.messageEnd_of_blow` what becomes of it.  `Session.pool_perform` says
what each call asks of the projectiles, and `Session.seat_perform` that only
coming and going changes who sits on a slot.
-/

namespace Fragboard.Match

namespace Session

variable {World : Type}

/-- Somebody sits down on a slot or leaves it. -/
def Call.turnsOver (slot : Slot) : Call World → Bool
  | .connect changed _ _ => changed = slot
  | .disconnect changed => changed = slot
  | _ => false

/-- A call that moves neither players nor projectiles. -/
def Call.isStaged : Call World → Bool
  | .setPaused _ | .setBritishAllies _ | .changeWorld _ => false
  | .connect _ _ _ | .disconnect _ => false
  | .messageEnd | .projectileTrace _ _ _ _ => false
  | .teardown _ | .teardownBackground _ => false
  | _ => true

/-- The projectiles that are tracked. -/
def pool (session : Session World) : ProjectilePool :=
  session.attributor.projectiles

theorem tally_emitAll (session : Session World) (events : List Event) :
    (session.emitAll events).tally = session.tally := by
  induction events generalizing session with
  | nil => rfl
  | cons event events ih => exact ih (session.emit event)

theorem pool_emitAll (session : Session World) (events : List Event) :
    (session.emitAll events).pool = session.pool :=
  congrArg Attributor.projectiles
    (SameCourse.emitAll (.refl session) events).attributor

variable [GameWorld World]

/-- Damage that counts. -/
structure Blow (World : Type) where
  victim : Slot
  report : DamageReport
  /-- The world from which the report was taken. -/
  world : World

/-- The damage that waits for a player, unless it is dropped. -/
def waitingBlow? (world : World) (victim : Slot) : Option (Blow World) :=
  let (report?, taken) := GameWorld.takeDamage world victim
  report?.bind fun report =>
    if report.amount = 0 ∨ !GameWorld.entityValid taken report.inflictor then
      none
    else
      some { victim := victim, report := report, world := taken }

theorem waitingBlow?_cases {world : World} {victim : Slot}
    {blow : Blow World} (waiting : waitingBlow? world victim = some blow) :
    blow.victim = victim ∧
    blow.world = (GameWorld.takeDamage world victim).2 ∧
    (GameWorld.takeDamage world victim).1 = some blow.report ∧
    blow.report.amount ≠ 0 ∧
    GameWorld.entityValid blow.world blow.report.inflictor = true := by
  obtain ⟨report, taken, counts⟩ := Option.bind_eq_some_iff.mp waiting
  obtain ⟨kept, same⟩ := Option.ite_none_left_eq_some.mp counts
  obtain rfl := Option.some.inj same
  rw [not_or, Bool.not_eq_true', Bool.not_eq_false] at kept
  exact ⟨rfl, rfl, taken, kept.1, kept.2⟩

theorem resolveDamage_eq (scene : Scene World) (victim : Slot) :
    resolveDamage scene victim =
      match waitingBlow? scene.world victim with
      | none =>
        (none,
          { scene with world := (GameWorld.takeDamage scene.world victim).2 })
      | some blow =>
        let (culprit, attributor) :=
          culpritOf scene.attributor blow.world blow.report.inflictor
        let (resolution, tally) :=
          recordDamage blow.world scene.tally blow.victim culprit
            blow.report.amount
        (some resolution,
          { world := blow.world
            tally := tally
            attributor := attributor }) := by
  unfold resolveDamage waitingBlow?
  rcases GameWorld.takeDamage scene.world victim with ⟨report?, taken⟩
  cases report? with
  | none => rfl
  | some report =>
      dsimp only [Option.bind_some]
      split <;> rfl

/-- The player whose damage the end of the present message takes in. -/
def damaged? (session : Session World) : Option Slot :=
  session.decoder.finish.1.bind fun call =>
    if call.meaning = .damage ∧ session.config.paused = false then
      session.liveSubject call.subject
    else
      none

/-- The damage that the end of the present message records. -/
def blow? (session : Session World) : Option (Blow World) :=
  session.damaged?.bind (waitingBlow? session.world)

theorem messageEnd_of_damaged {session : Session World} {victim : Slot}
    (damaged : session.damaged? = some victim) :
    session.config.paused = false ∧
    session.messageEnd =
      ({ session with
        decoder := session.decoder.finish.2
        subjectEntity := none }).endDamage victim := by
  obtain ⟨call, ended, takes⟩ := Option.bind_eq_some_iff.mp damaged
  obtain ⟨⟨meaning, unpaused⟩, subject⟩ :=
    Option.ite_none_right_eq_some.mp takes
  refine ⟨unpaused, ?_⟩
  unfold messageEnd
  simp only [ended, subject, meaning, applyEnd]

theorem sameStage_messageEnd {session : Session World}
    (undamaged : session.damaged? = none) :
    session.SameStage session.messageEnd := by
  let decoded : Session World :=
    { session with decoder := session.decoder.finish.2 }
  let closed : Session World := { decoded with subjectEntity := none }
  have keptDecoded : session.SameGround decoded :=
    .of_parts rfl rfl rfl rfl rfl
  have kept : session.SameGround closed := .of_parts rfl rfl rfl rfl rfl
  unfold messageEnd
  dsimp only
  split
  · exact keptDecoded.toSameStage
  · next call ended =>
    split
    · exact kept.toSameStage
    · next slot subject =>
      by_cases damage : call.meaning = .damage
      · have paused : session.config.paused = true := by
          simpa [damaged?, ended, damage, subject] using undamaged
        rw [damage, applyEnd, endDamage, if_pos paused]
        exact kept.toSameStage
      · exact kept.toSameStage.trans
          (closed.sameCourse_applyEnd damage slot).toSameStage

theorem messageEnd_of_blow {session : Session World} {blow : Blow World}
    (found : session.blow? = some blow) :
    let blamed := culpritOf session.attributor blow.world blow.report.inflictor
    let recorded :=
      recordDamage blow.world session.tally blow.victim blamed.1
        blow.report.amount
    session.messageEnd =
      ({ session with
        decoder := session.decoder.finish.2
        subjectEntity := none
        world := blow.world
        tally := recorded.2
        attributor := blamed.2 }).emitAll recorded.1.events := by
  obtain ⟨victim, damaged, waiting⟩ := Option.bind_eq_some_iff.mp found
  obtain ⟨unpaused, ended⟩ := messageEnd_of_damaged damaged
  rw [ended, endDamage, if_neg (by simp [unpaused])]
  simp only [resolveDamage_eq, waiting]
  rfl

/-- Damage that is dropped is taken all the same. -/
theorem messageEnd_of_dropped {session : Session World} {victim : Slot}
    (damaged : session.damaged? = some victim)
    (dropped : waitingBlow? session.world victim = none) :
    session.messageEnd =
      { session with
        decoder := session.decoder.finish.2
        subjectEntity := none
        world := (GameWorld.takeDamage session.world victim).2 } := by
  obtain ⟨unpaused, ended⟩ := messageEnd_of_damaged damaged
  rw [ended, endDamage, if_neg (by simp [unpaused])]
  simp only [resolveDamage_eq, dropped]
  rfl

/-- Ending a message moves nobody, and touches the attribution only to find out
who dealt the damage. -/
theorem messageEnd_parts (session : Session World) :
    (∀ slot, session.messageEnd.seat slot = session.seat slot) ∧
    session.messageEnd.attributor =
      session.blow?.elim session.attributor fun blow =>
        (culpritOf session.attributor blow.world blow.report.inflictor).2 := by
  cases damaged : session.damaged? with
  | none =>
      have kept := sameStage_messageEnd damaged
      have noBlow : session.blow? = none := by
        rw [blow?, damaged]
        rfl
      exact ⟨kept.seat, by rw [noBlow]; exact kept.attributor⟩
  | some victim =>
      obtain ⟨unpaused, ended⟩ := messageEnd_of_damaged damaged
      have waiting : session.blow? = waitingBlow? session.world victim := by
        rw [blow?, damaged]
        rfl
      rw [ended, endDamage, if_neg (by simp [unpaused]), waiting]
      simp only [resolveDamage_eq]
      have sent (resolved : Session World) (events : List Event) :
          resolved.SameCourse (resolved.emitAll events) :=
        .emitAll (.refl resolved) events
      cases waitingBlow? session.world victim with
      | none => exact ⟨(sent _ _).seat, (sent _ _).attributor⟩
      | some blow => exact ⟨(sent _ _).seat, (sent _ _).attributor⟩

theorem sameStage_applyDue (session : Session World) (slot : Slot)
    (due : DueClears) : session.SameStage (session.applyDue slot due) := by
  have flushed := session.sameStage_flushLife slot
  have counted (part : Session World) (change : Tally → Tally) :
      part.SameStage (part.mapTally change) :=
    (SameCourse.mapTally (.refl part) change).toSameStage
  unfold applyDue
  cases due.life with
  | none =>
      dsimp only
      split
      · exact counted _ _
      · exact .refl session
  | some full =>
      dsimp only
      split
      · exact (flushed.trans (counted _ _)).trans (counted _ _)
      · exact flushed.trans (counted _ _)

theorem sameStage_perform (session : Session World) {call : Call World}
    (staged : call.isStaged = true) :
    session.SameStage (session.perform call) := by
  cases call with
  | register name id => exact ⟨rfl, rfl, rfl, fun _ => rfl⟩
  | rename slot name =>
      simp only [perform, rename]
      split
      · exact .refl session
      · cases session.config.rankBy with
        | name =>
            refine .setPlayer ?_ slot rfl
            exact ⟨rfl, rfl, rfl, fun _ => rfl⟩
        | unique =>
            refine .setPlayer ?_ slot rfl
            exact ⟨rfl, rfl, rfl, fun _ => rfl⟩
  | messageField value =>
      exact (session.sameGround_messageField value).toSameStage
  | think slot =>
      simp only [perform, think]
      split
      · exact .refl session
      · refine .trans ?_ (sameCourse_announceScore _ slot).toSameStage
        refine .trans ?_ (sameStage_applyDue _ slot _)
        exact ⟨rfl, rfl, rfl, fun _ => rfl⟩
  | resetPlayerStats slot =>
      exact (session.sameCourse_resetPlayerStats slot).toSameStage
  | resetAllStats => exact session.sameCourse_resetAllStats.toSameStage
  | flushAllStats =>
      exact (SameCourse.emitAll (.refl session) _).toSameStage
  | loadRank tree => exact ⟨rfl, rfl, rfl, fun _ => rfl⟩
  | setMatchId id => exact ⟨rfl, rfl, rfl, fun _ => rfl⟩
  | receiveEvent => exact ⟨rfl, rfl, rfl, fun _ => rfl⟩
  | drainEvents => exact ⟨rfl, rfl, rfl, fun _ => rfl⟩
  | messageBegin id subject => exact ⟨rfl, rfl, rfl, fun _ => rfl⟩
  | aimTrace shooter hitGroup => exact ⟨rfl, rfl, rfl, fun _ => rfl⟩
  | _ => contradiction

/-- The weapon of a traced projectile and how long it is tracked. -/
def tracked? (session : Session World) (owner : Slot) (className : String) :
    Option (Weapon × Float32) :=
  if session.config.paused || !session.isPlaying owner then none
  else
    (projectileOfClass? className).map fun
      | (.grenade, named) =>
        (if named = Weapon.handGrenade ∧ session.attributor.britishAllies then
          Weapon.millsBomb
        else
          named, grenadeWindow)
      | (.rocket, weapon) => (weapon, session.attributor.rocketWindow)

/-- What a call asks of the projectiles. -/
def poolCall? (session : Session World) :
    Call World → Option ProjectilePool.Call
  | .messageEnd =>
    session.blow?.bind fun blow =>
      if (GameWorld.playerOf blow.world blow.report.inflictor).isSome then none
      else
        some (.findOwner blow.report.inflictor (GameWorld.now blow.world))
  | .projectileTrace owner projectile className _ =>
    (session.tracked? owner className).map fun (weapon, window) =>
      .put projectile (GameWorld.now session.world) window weapon owner
  | .teardown _ | .teardownBackground _ => some .clear
  | _ => none

theorem projectiles_culpritOf (attributor : Attributor) (world : World)
    (inflictor : EntityHandle) :
    (culpritOf attributor world inflictor).2.projectiles =
      if (GameWorld.playerOf world inflictor).isSome then attributor.projectiles
      else attributor.projectiles.sweep (GameWorld.now world) := by
  unfold culpritOf
  split
  · next found => rw [found]; rfl
  · next found => rw [found]; rfl

theorem pool_projectileTrace (session : Session World) (owner : Slot)
    (projectile : EntityHandle) (className : String) (position : Position) :
    (session.projectileTrace owner projectile className position).pool =
      (session.poolCall?
        (.projectileTrace owner projectile className position)).elim
          session.pool session.pool.perform := by
  unfold projectileTrace
  simp only [poolCall?, tracked?]
  split
  · rfl
  · rw [pool_emitAll]
    unfold Match.projectileTrace
    cases projectileOfClass? className with
    | none => rfl
    | some found =>
        obtain ⟨kind, named⟩ := found
        cases kind <;> rfl

theorem pool_perform (session : Session World) (call : Call World) :
    (session.perform call).pool =
      (session.poolCall? call).elim session.pool session.pool.perform := by
  cases call with
  | setPaused paused => rfl
  | setBritishAllies british => rfl
  | changeWorld change => rfl
  | connect slot name unique => rfl
  | disconnect slot =>
      simp only [perform, disconnect]
      split
      · exact congrArg Attributor.projectiles
          (session.sameStage_flushLife slot).attributor
      · rfl
  | messageEnd =>
      have ended := session.messageEnd_parts.2
      rw [perform, pool, ended, poolCall?]
      cases session.blow? with
      | none => rfl
      | some blow =>
          simp only [Option.elim_some, Option.bind_some, projectiles_culpritOf]
          split <;> rfl
  | projectileTrace owner projectile className position =>
      exact session.pool_projectileTrace owner projectile className position
  | teardown tree =>
      exact congrArg (fun attributor => attributor.projectiles.clear)
        (session.sameStage_closing session.playing).attributor
  | teardownBackground saver =>
      exact congrArg (fun attributor => attributor.projectiles.clear)
        (session.sameStage_closing session.playing).attributor
  | _ =>
      exact congrArg Attributor.projectiles
        (session.sameStage_perform rfl).attributor

theorem seat_perform (session : Session World) {slot : Slot}
    {call : Call World} (kept : call.turnsOver slot = false) :
    (session.perform call).seat slot = session.seat slot := by
  cases call with
  | setPaused paused => rfl
  | setBritishAllies british => rfl
  | changeWorld change => rfl
  | connect changed name unique =>
      have apart : changed ≠ slot := of_decide_eq_false kept
      exact congrArg PlayerState.seat (player_setPlayer_of_ne _ _ apart)
  | disconnect changed =>
      have apart : changed ≠ slot := of_decide_eq_false kept
      have flushed := (session.sameStage_flushLife changed).seat slot
      simp only [perform, disconnect]
      split
      · rw [seat, player_setPlayer_of_ne _ _ apart]
        exact flushed
      · rfl
  | messageEnd => exact session.messageEnd_parts.1 slot
  | projectileTrace owner projectile className position =>
      simp only [perform, projectileTrace]
      split
      · rfl
      · exact (SameCourse.emitAll (.refl _) _).seat slot
  | teardown tree => exact (session.sameStage_closing session.playing).seat slot
  | teardownBackground saver =>
      exact (session.sameStage_closing session.playing).seat slot
  | _ => exact (session.sameStage_perform rfl).seat slot

theorem config_messageEnd (session : Session World) :
    session.messageEnd.config = session.config := by
  cases damaged : session.damaged? with
  | none => exact (sameStage_messageEnd damaged).config
  | some victim =>
      obtain ⟨unpaused, ended⟩ := messageEnd_of_damaged damaged
      rw [ended, endDamage, if_neg (by simp [unpaused])]
      exact (SameCourse.emitAll (.refl _) _).config

/-- Pausing is the only call that changes the settings. -/
theorem config_perform (session : Session World) {call : Call World}
    (kept : ∀ paused, call ≠ .setPaused paused) :
    (session.perform call).config = session.config := by
  cases call with
  | setPaused paused => exact absurd rfl (kept paused)
  | setBritishAllies british => rfl
  | changeWorld change => rfl
  | connect slot name unique => rfl
  | disconnect slot =>
      simp only [perform, disconnect]
      split
      · exact session.flushLife_config slot
      · rfl
  | messageEnd => exact session.config_messageEnd
  | projectileTrace owner projectile className position =>
      simp only [perform, projectileTrace]
      split
      · rfl
      · exact (SameCourse.emitAll (.refl _) _).config
  | teardown tree => exact (session.sameStage_closing session.playing).config
  | teardownBackground saver =>
      exact (session.sameStage_closing session.playing).config
  | _ => exact (session.sameStage_perform rfl).config

end Session

end Fragboard.Match
