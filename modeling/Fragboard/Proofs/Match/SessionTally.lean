import Fragboard.Proofs.Match.SessionEvents
import Fragboard.Proofs.Match.TallyCalls

/-!
# What the calls of a session ask of the tally

`Session.tallyCalls` is what a call asks of the tally, in order, and
`Session.tally_perform` says that nothing else happens to the tally.  So the
tally of a match is one that `Tally.run` reaches (`Session.tally_run`).
-/

namespace Fragboard.Match

open Message (FieldMeaning EndAction)

namespace Tally

/-- A call that counts nothing, handles no weapon and wipes no slot. -/
def Call.isClerical : Call → Bool
  | .resetPlayer _ _ | .setHeld _ _ | .swapClip _ _ _ => false
  | .recordShot _ _ | .recordHit _ _ _ _ _ | .recordKill _ _ _ _ _ => false
  | .awardObjective _ _ => false
  | _ => true

def Call.isKill : Call → Bool
  | .recordKill _ _ _ _ _ => true
  | _ => false

theorem run_append (tally : Tally) (calls later : List Call) :
    tally.run (calls ++ later) = (tally.run calls).run later :=
  List.foldl_append

theorem run_nil (tally : Tally) : tally.run [] = tally :=
  rfl

/-- Carrying out one call for each of some players. -/
theorem run_map (tally : Tally) (slots : List Slot) (call : Slot → Call) :
    tally.run (slots.map call) =
      slots.foldl (fun tally slot => tally.perform (call slot)) tally :=
  List.foldl_map

end Tally

section Attribution

variable {World : Type} [GameWorld World]

/-- What a weapon record asks of the tally. -/
def switchCalls (world : World) (tally : Tally) (player : Slot)
    (record : WeaponRecord) : List Tally.Call :=
  match record.active, Weapon.ofNumber? record.weapon with
  | true, some named =>
    let weapon := trueWeapon world player named
    .setHeld player weapon :: .swapClip player weapon record.clip ::
      if isOneShot weapon (tally.clip? player weapon) record.clip then
        [.recordShot player weapon]
      else []
  | _, _ => []

theorem tally_weaponSwitch (world : World) (tally : Tally) (player : Slot)
    (record : WeaponRecord) :
    (weaponSwitch world tally player record).2 =
      tally.run (switchCalls world tally player record) := by
  cases active : record.active with
  | false => simp only [weaponSwitch, switchCalls, active, Tally.run_nil]
  | true =>
      cases known : Weapon.ofNumber? record.weapon with
      | none =>
          simp only [weaponSwitch, switchCalls, active, known, Tally.run_nil]
      | some named =>
          let weapon := trueWeapon world player named
          have clip : ((tally.setHeld player weapon).2.swapClip player weapon
              record.clip).1 = tally.clip? player weapon := by
            simp only [Tally.swapClip, Tally.clip?, Tally.setHeld,
              Tally.player_change_self]
          simp only [weaponSwitch, switchCalls, active, known]
          rw [clip]
          cases isOneShot weapon (tally.clip? player weapon) record.clip with
          | false => rfl
          | true => rfl

/-- What damage asks of the tally, short of a death. -/
def strokeCalls (world : World) (tally : Tally) (victim : Slot)
    (culprit : Culprit) (amount : Int32) : List Tally.Call :=
  let (attacker, weapon, region) := blame world tally victim culprit
  let blow : List Tally.Call :=
    match culprit with
    | .shooter player =>
      if weapon.facts.melee then [.recordShot player weapon] else []
    | _ => []
  blow ++
    if attacker = victim then []
    else [.recordHit attacker victim weapon amount region]

/-- What damage asks of the tally if its victim is dead. -/
def killCalls (world : World) (tally : Tally) (victim : Slot)
    (culprit : Culprit) : List Tally.Call :=
  let (attacker, weapon, region) := blame world tally victim culprit
  if GameWorld.isAlive world victim then []
  else
    [.recordKill attacker victim weapon (region == some .head)
      (areTeammates world attacker victim)]

theorem tally_recordDamage (world : World) (tally : Tally) (victim : Slot)
    (culprit : Culprit) (amount : Int32) :
    (recordDamage world tally victim culprit amount).2 =
      tally.run (strokeCalls world tally victim culprit amount ++
        killCalls world tally victim culprit) := by
  unfold recordDamage strokeCalls killCalls
  rcases blame world tally victim culprit with ⟨attacker, weapon, region⟩
  dsimp only
  rw [Tally.run_append, Tally.run_append]
  have counted : countBlow tally culprit weapon = tally.run
      (match culprit with
        | .shooter player =>
          if weapon.facts.melee then [.recordShot player weapon] else []
        | _ => []) := by
    cases culprit with
    | shooter player =>
        simp only [countBlow]
        split <;> rfl
    | sender player sent => rfl
    | nobody => rfl
  rw [counted]
  by_cases own : attacker = victim
  · cases GameWorld.isAlive world victim <;> simp [own] <;> rfl
  · cases GameWorld.isAlive world victim <;> simp [own] <;> rfl

end Attribution

namespace Session

variable {World : Type}

/-- What a change of a player's score asks of the tally. -/
def objectiveCalls (session : Session World) (slot : Slot) (score : Int32) :
    List Tally.Call :=
  let delta := score - (session.player slot).savedScore
  if (session.player slot).connected ∧ delta ≠ 0 ∧ !session.config.paused then
    [.awardObjective slot delta]
  else []

def ammoCalls (session : Session World) (slot : Slot) (amount : Int32) :
    List Tally.Call :=
  let ammoSlot := session.draft.ammoSlot.toInt
  if 0 ≤ ammoSlot ∧ ammoSlot < 256 then
    [.setAmmo slot (UInt8.ofNat ammoSlot.toNat) amount]
  else []

theorem tally_setAmmo (session : Session World) (slot : Slot)
    (amount : Int32) :
    (session.setAmmo slot amount).tally =
      session.tally.run (session.ammoCalls slot amount) := by
  unfold setAmmo ammoCalls
  dsimp only
  split <;> rfl

theorem tally_resetAllStats (session : Session World) :
    session.resetAllStats.tally =
      session.tally.run ((Slot.all.filter fun slot =>
        (session.player slot).connected).map (Tally.Call.restart · true)) := by
  unfold resetAllStats
  induction Slot.all generalizing session with
  | nil => rfl
  | cons slot slots ih =>
      have players : (session.resetPlayerStats slot).player =
          session.player := by
        unfold resetPlayerStats
        split <;> rfl
      rw [List.foldl_cons, ih, players, List.filter_cons, resetPlayerStats]
      split <;> rfl

variable [GameWorld World]

theorem tally_objectiveScore (session : Session World) (slot : Slot)
    (score : Int32) :
    (session.objectiveScore slot score).tally =
      session.tally.run (session.objectiveCalls slot score) := by
  cases connected : (session.player slot).connected with
  | false => simp [objectiveScore, objectiveCalls, connected, Tally.run_nil]
  | true =>
      simp only [objectiveScore, objectiveCalls, connected, Bool.not_true,
        Bool.false_eq_true, if_false, true_and]
      by_cases counts : score - (session.player slot).savedScore ≠ 0 ∧
        !session.config.paused
      · rw [if_pos counts, if_pos counts]
        rfl
      · rw [if_neg counts, if_neg counts]
        rfl

/-- What a field asks of the tally. -/
def fieldCalls (session : Session World) (meaning : FieldMeaning)
    (subject : Option Slot) (int : Option Int32) : List Tally.Call :=
  match meaning with
  | .scoreValue =>
    match session.draft.scorePlayer, int with
    | some slot, some score => session.objectiveCalls slot score
    | _, _ => []
  | .roundState =>
    if int = some 1 then
      session.playing.map (.scheduleRound ·
        (GameWorld.now session.world + session.config.resetDelay))
    else []
  | .ammoAmount =>
    match subject, int with
    | some slot, some amount => session.ammoCalls slot amount
    | _, _ => []
  | _ => []

theorem tally_applyField (session : Session World) (meaning : FieldMeaning)
    (subject : Option Slot) (int : Option Int32) :
    (session.applyField meaning subject int).tally =
      session.tally.run (session.fieldCalls meaning subject int) := by
  cases meaning with
  | scoreValue =>
      simp only [applyField, fieldCalls]
      cases session.draft.scorePlayer with
      | none => rfl
      | some slot =>
          cases int with
          | none => rfl
          | some score => exact session.tally_objectiveScore slot score
  | roundState =>
      simp only [applyField, fieldCalls, scheduleRounds]
      by_cases started : int = some 1
      · rw [if_pos started, if_pos started]
        exact (session.tally.run_map session.playing (.scheduleRound ·
          (GameWorld.now session.world + session.config.resetDelay))).symm
      · rw [if_neg started, if_neg started]
        rfl
  | teamScore =>
      simp only [applyField, setTeamScore]
      split
      · split <;> rfl
      · rfl
  | ammoAmount =>
      simp only [applyField, fieldCalls]
      cases subject with
      | none => rfl
      | some slot =>
          cases int with
          | none => rfl
          | some amount => exact session.tally_setAmmo slot amount
  | fieldOfView =>
      simp only [applyField]
      split <;> rfl
  | objectName =>
      simp only [applyField, noteObject]
      split
      · split
        · rfl
        · split <;> rfl
      · rfl
  | statusPlayer =>
      simp only [applyField]
      split <;> rfl
  | _ => rfl

/-- What damage asks of the tally once its culprit is found. -/
def blowCalls (session : Session World) (blow : Blow World) :
    List Tally.Call :=
  strokeCalls blow.world session.tally blow.victim (session.culprit blow)
      blow.report.amount ++
    killCalls blow.world session.tally blow.victim (session.culprit blow)

/-- What an end asks of the tally. -/
def endCalls (session : Session World) (slot : Slot) :
    EndAction → List Tally.Call
  | .weaponSwitch =>
    if session.config.paused then []
    else switchCalls session.world session.tally slot session.draft.record
  | .damage =>
    if session.config.paused then []
    else (waitingBlow? session.world slot).elim [] session.blowCalls
  | .lifeReset =>
    [.scheduleLife slot
      (GameWorld.now session.world + session.config.resetDelay) false]
  | .scopeCheck | .objectToggle => []

theorem tally_applyEnd (session : Session World) (action : EndAction)
    (slot : Slot) :
    (session.applyEnd action slot).tally =
      session.tally.run (session.endCalls slot action) := by
  cases action with
  | weaponSwitch =>
      simp only [applyEnd, endWeaponSwitch, endCalls]
      split
      · rfl
      · rw [tally_emitAll]
        exact tally_weaponSwitch _ _ _ _
  | damage =>
      simp only [applyEnd, endDamage, endCalls]
      split
      · rfl
      · rw [tally_emitAll, resolveDamage_eq]
        cases waitingBlow? session.world slot with
        | none => rfl
        | some blow => exact tally_recordDamage _ _ _ _ _
  | lifeReset => rfl
  | scopeCheck =>
      simp only [applyEnd, endScopeCheck]
      split <;> rfl
  | objectToggle =>
      simp only [applyEnd, endObjectToggle]
      split
      · rfl
      · split <;> rfl

def dueCalls (slot : Slot) (due : DueClears) : List Tally.Call :=
  due.life.toList.map (.restart slot ·) ++
    if due.round then [.clearRound slot] else []

theorem tally_applyDue (session : Session World) (slot : Slot)
    (due : DueClears) :
    (session.applyDue slot due).tally =
      session.tally.run (dueCalls slot due) := by
  have flushed := session.flushLife_tally slot
  unfold applyDue dueCalls
  cases due.life with
  | none =>
      cases due.round <;> rfl
  | some full =>
      have restarted : ((session.flushLife slot).mapTally
          (·.restart slot full)).tally = session.tally.restart slot full :=
        congrArg (·.restart slot full) flushed
      cases due.round with
      | false => exact restarted
      | true => exact congrArg (·.clearRound slot) restarted

/-- What a call asks of the tally, in order. -/
def tallyCalls (session : Session World) : Call World → List Tally.Call
  | .connect slot name _ => [.resetPlayer slot name]
  | .rename slot name =>
    let state := session.player slot
    if !state.connected || state.name == name then []
    else [.setName slot name]
  | .messageField value =>
    session.decoder.field.1.elim [] fun call =>
      session.fieldCalls call.meaning (session.liveSubject call.subject)
        value.asInt
  | .messageEnd =>
    session.closing?.elim [] fun (action, slot) =>
      session.endCalls slot action
  | .aimTrace shooter hitGroup =>
    [.setLastRegion shooter (BodyRegion.ofHitGroup? hitGroup)]
  | .projectileTrace owner _ className _ =>
    (session.tracked? owner className).toList.map fun (weapon, _) =>
      .recordShot owner weapon
  | .think slot =>
    let now := GameWorld.now session.world
    if session.isPlaying slot then
      .takeDue slot now :: dueCalls slot (session.tally.takeDue slot now).1
    else []
  | .resetPlayerStats slot =>
    if (session.player slot).connected then [.restart slot true] else []
  | .resetAllStats =>
    (Slot.all.filter fun slot => (session.player slot).connected).map
      (.restart · true)
  | .teardown _ | .teardownBackground _ =>
    session.playing.map (.restart · false)
  | _ => []

theorem tally_projectileTrace (session : Session World) (owner : Slot)
    (projectile : EntityHandle) (className : String) (position : Position) :
    (session.projectileTrace owner projectile className position).tally =
      session.tally.run (session.tallyCalls
        (.projectileTrace owner projectile className position)) := by
  unfold projectileTrace
  simp only [tallyCalls, tracked?]
  split
  · rfl
  · rw [tally_emitAll]
    unfold Match.projectileTrace
    cases projectileOfClass? className with
    | none => rfl
    | some found =>
        obtain ⟨kind, named⟩ := found
        cases kind <;> rfl

theorem tally_closing (session : Session World) (slots : List Slot) :
    (slots.foldl closeLife session).tally =
      session.tally.run (slots.map (Tally.Call.restart · false)) := by
  induction slots generalizing session with
  | nil => rfl
  | cons slot slots ih =>
      have first : (session.closeLife slot).tally =
          session.tally.restart slot false :=
        congrArg (·.restart slot false) (session.flushLife_tally slot)
      rw [List.foldl_cons, ih, first]
      rfl

theorem tally_perform (session : Session World) (call : Call World) :
    (session.perform call).tally =
      session.tally.run (session.tallyCalls call) := by
  cases call with
  | register name id => rfl
  | disconnect slot =>
      simp only [perform, disconnect]
      split
      · exact session.flushLife_tally slot
      · rfl
  | rename slot name =>
      simp only [perform, rename, tallyCalls]
      split
      · rfl
      · cases session.config.rankBy <;> rfl
  | messageField value =>
      simp only [perform, messageField, tallyCalls]
      cases session.decoder.field.1 with
      | none => rfl
      | some call => exact tally_applyField _ _ _ _
  | messageEnd =>
      simp only [perform, tallyCalls]
      cases closing : session.closing? with
      | none =>
          obtain ⟨subject, ended⟩ := messageEnd_of_idle closing
          rw [ended]
          rfl
      | some closed =>
          rw [messageEnd_of_closing closing]
          exact tally_applyEnd _ _ _
  | projectileTrace owner projectile className position =>
      exact session.tally_projectileTrace _ _ _ _
  | think slot =>
      simp only [perform, think, tallyCalls]
      cases session.isPlaying slot with
      | false => rfl
      | true =>
          have announced (part : Session World) :
              (part.announceScore slot).tally = part.tally := by
            unfold announceScore
            dsimp only
            split <;> rfl
          exact (announced _).trans (tally_applyDue _ slot _)
  | resetPlayerStats slot =>
      simp only [perform, resetPlayerStats, tallyCalls]
      split <;> rfl
  | resetAllStats => exact session.tally_resetAllStats
  | flushAllStats => exact session.tally_emitAll _
  | teardown tree => exact session.tally_closing _
  | teardownBackground saver => exact session.tally_closing _
  | _ => rfl

theorem notKill_of_strokeCalls {world : World} {tally : Tally}
    {victim : Slot} {culprit : Culprit} {amount : Int32}
    {asked : Tally.Call}
    (member : asked ∈ strokeCalls world tally victim culprit amount) :
    asked.isKill = false := by
  unfold strokeCalls at member
  dsimp only at member
  rcases List.mem_append.mp member with shot | hit
  · split at shot
    · split at shot
      · rw [List.mem_singleton.mp shot]
        rfl
      · exact absurd shot List.not_mem_nil
    · exact absurd shot List.not_mem_nil
  · split at hit
    · exact absurd hit List.not_mem_nil
    · rw [List.mem_singleton.mp hit]
      rfl

theorem notKill_of_switchCalls {world : World} {tally : Tally}
    {slot : Slot} {record : WeaponRecord} {asked : Tally.Call}
    (member : asked ∈ switchCalls world tally slot record) :
    asked.isKill = false := by
  unfold switchCalls at member
  split at member
  · rcases List.mem_cons.mp member with rfl | later
    · rfl
    · rcases List.mem_cons.mp later with rfl | shot
      · rfl
      · split at shot
        · rw [List.mem_singleton.mp shot]
          rfl
        · exact absurd shot List.not_mem_nil
  · exact absurd member List.not_mem_nil

theorem fieldCalls_cases {session : Session World} {meaning : FieldMeaning}
    {subject : Option Slot} {int : Option Int32} {asked : Tally.Call}
    (member : asked ∈ session.fieldCalls meaning subject int) :
    asked.isClerical = true ∨
    session.config.paused = false ∧ asked.isKill = false := by
  unfold fieldCalls at member
  split at member
  · split at member
    · unfold objectiveCalls at member
      dsimp only at member
      split at member
      · next counts =>
        rw [List.mem_singleton.mp member]
        exact .inr ⟨by simpa using counts.2.2, rfl⟩
      · exact absurd member List.not_mem_nil
    · exact absurd member List.not_mem_nil
  · split at member
    · obtain ⟨slot, _, rfl⟩ := List.mem_map.mp member
      exact .inl rfl
    · exact absurd member List.not_mem_nil
  · split at member
    · unfold ammoCalls at member
      dsimp only at member
      split at member
      · rw [List.mem_singleton.mp member]
        exact .inl rfl
      · exact absurd member List.not_mem_nil
    · exact absurd member List.not_mem_nil
  · exact absurd member List.not_mem_nil

theorem clerical_of_dueCalls {slot : Slot} {due : DueClears}
    {asked : Tally.Call} (member : asked ∈ dueCalls slot due) :
    asked.isClerical = true := by
  rcases List.mem_append.mp member with life | round
  · obtain ⟨full, _, rfl⟩ := List.mem_map.mp life
    rfl
  · split at round
    · rw [List.mem_singleton.mp round]
      rfl
    · exact absurd round List.not_mem_nil

/-- What the end of a damage message asks for is that of the blow that waited. -/
theorem damageCalls_cases {session : Session World} {victim : Slot}
    (closing : session.closing? = some (.damage, victim)) {asked : Tally.Call}
    (member : asked ∈ session.endCalls victim .damage) :
    session.config.paused = false ∧
      (asked.isKill = false ∨ ∃ blow, session.blow? = some blow ∧
        asked ∈ killCalls blow.world session.tally blow.victim
          (session.culprit blow)) := by
  simp only [endCalls] at member
  split at member
  · exact absurd member List.not_mem_nil
  · next running =>
    have unpaused := eq_false_of_ne_true running
    refine ⟨unpaused, ?_⟩
    cases waiting : waitingBlow? session.world victim with
    | none =>
        rw [waiting] at member
        exact absurd member List.not_mem_nil
    | some blow =>
        rw [waiting, Option.elim_some, blowCalls, List.mem_append] at member
        rcases member with stroke | kill
        · exact .inl (notKill_of_strokeCalls stroke)
        · refine .inr ⟨blow, ?_, kill⟩
          rw [blow?, damaged?_of_closing closing unpaused]
          exact waiting

theorem endCalls_cases {session : Session World} {action : EndAction}
    {slot : Slot} (closing : session.closing? = some (action, slot))
    {asked : Tally.Call} (member : asked ∈ session.endCalls slot action) :
    asked.isClerical = true ∨
    session.config.paused = false ∧
      (asked.isKill = false ∨ ∃ blow, session.blow? = some blow ∧
        asked ∈ killCalls blow.world session.tally blow.victim
          (session.culprit blow)) := by
  cases action with
  | weaponSwitch =>
      simp only [endCalls] at member
      split at member
      · exact absurd member List.not_mem_nil
      · next unpaused =>
        exact .inr ⟨eq_false_of_ne_true unpaused,
          .inl (notKill_of_switchCalls member)⟩
  | damage => exact .inr (damageCalls_cases closing member)
  | lifeReset =>
      rw [List.mem_singleton.mp member]
      exact .inl rfl
  | scopeCheck => exact absurd member List.not_mem_nil
  | objectToggle => exact absurd member List.not_mem_nil

theorem messageField_asked {session : Session World}
    {value : Message.FieldValue} {asked : Tally.Call}
    (member : asked ∈ session.tallyCalls (.messageField value)) :
    asked.isClerical = true ∨
    session.config.paused = false ∧ asked.isKill = false := by
  simp only [tallyCalls] at member
  cases decoded : session.decoder.field.1 with
  | none =>
      rw [decoded] at member
      exact absurd member List.not_mem_nil
  | some call =>
      rw [decoded] at member
      exact fieldCalls_cases member

theorem messageEnd_asked {session : Session World} {asked : Tally.Call}
    (member : asked ∈ session.tallyCalls .messageEnd) :
    asked.isClerical = true ∨
    session.config.paused = false ∧
      (asked.isKill = false ∨ ∃ blow, session.blow? = some blow ∧
        asked ∈ killCalls blow.world session.tally blow.victim
          (session.culprit blow)) := by
  simp only [tallyCalls] at member
  cases closing : session.closing? with
  | none =>
      rw [closing] at member
      exact absurd member List.not_mem_nil
  | some closed =>
      rw [closing] at member
      exact endCalls_cases closing member

/-- All that raises a counter or handles a weapon is asked for only while the
match is not paused; deaths are counted only at the end of a message. -/
theorem asked_cases {session : Session World} {call : Call World}
    {asked : Tally.Call} (member : asked ∈ session.tallyCalls call) :
    asked.isClerical = true ∨
    (∃ slot name unique,
      call = .connect slot name unique ∧ asked = .resetPlayer slot name) ∨
    session.config.paused = false ∧
      (asked.isKill = false ∨ ∃ blow,
        call = .messageEnd ∧ session.blow? = some blow ∧
        asked ∈ killCalls blow.world session.tally blow.victim
          (session.culprit blow)) := by
  cases call with
  | connect slot name unique =>
      rw [List.mem_singleton.mp member]
      exact .inr (.inl ⟨slot, name, unique, rfl, rfl⟩)
  | rename slot name =>
      simp only [tallyCalls] at member
      split at member
      · exact absurd member List.not_mem_nil
      · rw [List.mem_singleton.mp member]
        exact .inl rfl
  | messageField value =>
      rcases messageField_asked member with clerical | ⟨unpaused, spared⟩
      · exact .inl clerical
      · exact .inr (.inr ⟨unpaused, .inl spared⟩)
  | messageEnd =>
      rcases messageEnd_asked member with
        clerical | ⟨unpaused, spared | ⟨blow, struck, kill⟩⟩
      · exact .inl clerical
      · exact .inr (.inr ⟨unpaused, .inl spared⟩)
      · exact .inr (.inr ⟨unpaused, .inr ⟨blow, rfl, struck, kill⟩⟩)
  | aimTrace shooter hitGroup =>
      rw [List.mem_singleton.mp member]
      exact .inl rfl
  | projectileTrace owner projectile className position =>
      obtain ⟨found, traced, rfl⟩ := List.mem_map.mp member
      have running :=
        (Option.ite_none_left_eq_some.mp (Option.mem_toList.mp traced)).1
      rw [Bool.or_eq_true, not_or, Bool.not_eq_true] at running
      exact .inr (.inr ⟨running.1, .inl rfl⟩)
  | think slot =>
      simp only [tallyCalls] at member
      split at member
      · rcases List.mem_cons.mp member with rfl | due
        · exact .inl rfl
        · exact .inl (clerical_of_dueCalls due)
      · exact absurd member List.not_mem_nil
  | resetPlayerStats slot =>
      simp only [tallyCalls] at member
      split at member
      · rw [List.mem_singleton.mp member]
        exact .inl rfl
      · exact absurd member List.not_mem_nil
  | resetAllStats =>
      obtain ⟨slot, _, rfl⟩ := List.mem_map.mp member
      exact .inl rfl
  | teardown tree =>
      obtain ⟨slot, _, rfl⟩ := List.mem_map.mp member
      exact .inl rfl
  | teardownBackground saver =>
      obtain ⟨slot, _, rfl⟩ := List.mem_map.mp member
      exact .inl rfl
  | _ => exact absurd member List.not_mem_nil

/-- The tally after any calls is one that a tally reaches by calls of its
own. -/
theorem tally_run (session : Session World) (calls : List (Call World)) :
    ∃ asked, (session.run calls).tally = session.tally.run asked := by
  induction calls generalizing session with
  | nil => exact ⟨[], rfl⟩
  | cons call rest ih =>
      obtain ⟨asked, later⟩ := ih (session.perform call)
      refine ⟨session.tallyCalls call ++ asked, ?_⟩
      rw [Tally.run_append, ← session.tally_perform call]
      exact later

end Session

end Fragboard.Match
