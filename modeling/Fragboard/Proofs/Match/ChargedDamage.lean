import Fragboard.Proofs.Match.RecordingOrder
import Fragboard.Proofs.Match.ScriptedMatch
import Fragboard.Proofs.Match.SessionTally

/-!
# Whom damage is charged to

The damage that an entity dealt is charged to the player who owns the entity,
else to the sender of its newest launch that is still tracked, else to the
victim.  `Charged` is this order.  What is charged settles what is recorded, and
nothing else changes; a report that is dropped is taken all the same.
-/

namespace Fragboard.Match

namespace FlightLog

/-- The last launch of a projectile that has not run out. -/
def Newest (log : FlightLog) (handle : EntityHandle) (now : Float32)
    (launch : Launch) : Prop :=
  ∃ before after, log.launches = before ++ launch :: after ∧
    launch.handle = handle ∧ ¬launch.expiresAt ≤ now ∧
    ∀ later ∈ after, later.handle = handle → later.expiresAt ≤ now

/-- Every launch of a projectile has run out. -/
def Landed (log : FlightLog) (handle : EntityHandle) (now : Float32) : Prop :=
  ∀ launch ∈ log.launches, launch.handle = handle → launch.expiresAt ≤ now

theorem findOwner_cases (log : FlightLog) (handle : EntityHandle)
    (now : Float32) :
    (∃ launch, log.Newest handle now launch ∧
      (log.findOwner handle now).1 = some (launch.owner, launch.weapon)) ∨
    log.Landed handle now ∧ (log.findOwner handle now).1 = none := by
  have answer : (log.findOwner handle now).1 =
      (log.launches.reverse.find? fun launch =>
        decide (launch.handle = handle) && decide ¬launch.expiresAt ≤ now).map
          fun launch => (launch.owner, launch.weapon) := by
    rw [findOwner, List.filter_filter, List.getLast?_filter]
  rw [answer]
  cases last : log.launches.reverse.find? fun launch =>
      decide (launch.handle = handle) && decide ¬launch.expiresAt ≤ now with
  | none =>
      right
      refine ⟨?_, rfl⟩
      intro launch member same
      have passed := List.find?_eq_none.mp last launch
        (List.mem_reverse.mpr member)
      simpa [same] using passed
  | some launch =>
      left
      obtain ⟨flies, after, before, split, passed⟩ :=
        List.find?_eq_some_iff_append.mp last
      rw [Bool.and_eq_true, decide_eq_true_eq, decide_eq_true_eq] at flies
      have order : log.launches =
          before.reverse ++ launch :: after.reverse := by
        rw [← List.reverse_reverse log.launches, split]
        simp
      refine ⟨launch, ⟨_, _, order, flies.1, flies.2, ?_⟩, rfl⟩
      intro later member same
      have gone := passed later (List.mem_reverse.mp member)
      simpa [same] using gone

end FlightLog

/-- Who is charged with damage, and how it was dealt. -/
structure Charge where
  attacker : Slot
  weapon : Weapon
  region : Option BodyRegion
  /-- It was a blow, which is a shot of its melee weapon. -/
  isBlow : Bool

/-- The order in which it is settled whom damage is charged to. -/
inductive Charged {World : Type} [GameWorld World] (world : World)
    (tally : Tally) (log : FlightLog) (victim : Slot)
    (inflictor : EntityHandle) : Charge → Prop where
  | owner {player : Slot} {weapon : Weapon}
      (owns : GameWorld.playerOf world inflictor = some player)
      (held : weapon = trueWeapon world player (tally.player player).held) :
      Charged world tally log victim inflictor
        { attacker := player
          weapon := weapon
          region := (tally.player player).lastRegion
          isBlow := weapon.facts.melee }
  | sender {launch : Launch}
      (unowned : GameWorld.playerOf world inflictor = none)
      (newest : log.Newest inflictor (GameWorld.now world) launch) :
      Charged world tally log victim inflictor
        { attacker := launch.owner
          weapon := launch.weapon
          region := none
          isBlow := false }
  | victim
      (unowned : GameWorld.playerOf world inflictor = none)
      (landed : log.Landed inflictor (GameWorld.now world)) :
      Charged world tally log victim inflictor
        { attacker := victim
          weapon := Weapon.unarmed
          region := none
          isBlow := false }

namespace Resolution

/-- A hit, unless the victim is the attacker. -/
def hits (resolution : Resolution) : List Tally.Call :=
  if resolution.attacker = resolution.victim then []
  else
    [.recordHit resolution.attacker resolution.victim resolution.weapon
      resolution.amount resolution.region]

/-- A kill, if the victim is dead. -/
def kills (resolution : Resolution) : List Tally.Call :=
  if resolution.killed then
    [.recordKill resolution.attacker resolution.victim resolution.weapon
      (resolution.region == some .head) resolution.teamkill]
  else []

end Resolution

namespace Charge

def shots (charge : Charge) : List Tally.Call :=
  if charge.isBlow then [.recordShot charge.attacker charge.weapon] else []

variable {World : Type} [GameWorld World]

/-- The resolution of damage that is charged so. -/
def resolution (charge : Charge) (world : World) (victim : Slot)
    (amount : Int32) : Resolution :=
  { attacker := charge.attacker
    victim := victim
    weapon := charge.weapon
    amount := amount
    region := charge.region
    teamkill := areTeammates world charge.attacker victim
    killed := !GameWorld.isAlive world victim }

/-- What damage that is charged so asks of the tally. -/
def calls (charge : Charge) (world : World) (victim : Slot) (amount : Int32) :
    List Tally.Call :=
  let resolution := charge.resolution world victim amount
  charge.shots ++ resolution.hits ++ resolution.kills

end Charge

section Charging

variable {World : Type} [GameWorld World]

theorem areTeammates_iff (world : World) (attacker victim : Slot) :
    areTeammates world attacker victim = true ↔
      attacker ≠ victim ∧ ∃ team,
        GameWorld.team world attacker = some team ∧
        GameWorld.team world victim = some team := by
  rw [areTeammates, Bool.and_eq_true, decide_eq_true_eq]
  apply and_congr_right
  intro _
  cases GameWorld.team world attacker with
  | none => simp
  | some first =>
      cases GameWorld.team world victim with
      | none => simp
      | some second => simp [@eq_comm _ first]

/-- The culprit stands for a charge. -/
theorem exists_charged {attributor : Attributor} {log : FlightLog}
    (keeps : attributor.projectiles.Keeps log) (world : World) (tally : Tally)
    (victim : Slot) (inflictor : EntityHandle) (amount : Int32) :
    let culprit := (culpritOf attributor world inflictor).1
    ∃ charge, Charged world tally log victim inflictor charge ∧
      blame world tally victim culprit =
        (charge.attacker, charge.weapon, charge.region) ∧
      strokeCalls world tally victim culprit amount =
        charge.shots ++ (charge.resolution world victim amount).hits := by
  intro culprit
  cases owns : GameWorld.playerOf world inflictor with
  | some player =>
      have here : culprit = .shooter player := by
        simp only [culprit, culpritOf, owns]
      rw [here]
      exact ⟨_, .owner owns rfl, rfl, rfl⟩
  | none =>
      have answer := (keeps.findOwner inflictor (GameWorld.now world)).1
      rcases log.findOwner_cases inflictor (GameWorld.now world) with
        ⟨launch, newest, found⟩ | ⟨landed, found⟩
      · have here : culprit = .sender launch.owner launch.weapon := by
          simp only [culprit, culpritOf, owns, answer, found]
        rw [here]
        exact ⟨_, .sender owns newest, rfl, rfl⟩
      · have here : culprit = .nobody := by
          simp only [culprit, culpritOf, owns, answer, found]
        rw [here]
        exact ⟨_, .victim owns landed, rfl, rfl⟩

section Blamed

variable {world : World} {tally : Tally} {victim : Slot} {culprit : Culprit}
  {charge : Charge} (amount : Int32)
  (blamed : blame world tally victim culprit =
    (charge.attacker, charge.weapon, charge.region))

include blamed

theorem recordDamage_of_blamed :
    (recordDamage world tally victim culprit amount).1 =
      charge.resolution world victim amount := by
  simp only [recordDamage, blamed]
  rfl

theorem killCalls_of_blamed :
    killCalls world tally victim culprit =
      (charge.resolution world victim amount).kills := by
  cases alive : GameWorld.isAlive world victim with
  | true => simp [killCalls, alive, Resolution.kills, Charge.resolution]
  | false =>
      simp [killCalls, blamed, alive, Resolution.kills, Charge.resolution]

end Blamed

end Charging

namespace Tally

/-- The call has to do with a player. -/
def Call.involves (slot : Slot) : Call → Bool
  | .recordHit attacker victim _ _ _ | .recordKill attacker victim _ _ _ =>
    attacker = slot ∨ victim = slot
  | .resetPlayer changed _ | .setName changed _ => changed = slot
  | .recordShot changed _ | .awardObjective changed _ => changed = slot
  | .setHeld changed _ | .setLastRegion changed _ => changed = slot
  | .swapClip changed _ _ | .setAmmo changed _ _ => changed = slot
  | .scheduleLife changed _ _ | .scheduleRound changed _ => changed = slot
  | .takeDue changed _ | .restart changed _ => changed = slot
  | .clearRound changed => changed = slot

theorem player_perform_of_uninvolved (tally : Tally) {call : Call} {slot : Slot}
    (uninvolved : call.involves slot = false) :
    (tally.perform call).player slot = tally.player slot := by
  cases call with
  | recordHit attacker victim weapon damage region =>
      rw [Call.involves, decide_eq_false_iff_not, not_or] at uninvolved
      rw [perform, recordHit, player_change_of_ne _ _ uninvolved.2,
        player_change_of_ne _ _ uninvolved.1]
  | recordKill attacker victim weapon headshot teamkill =>
      rw [Call.involves, decide_eq_false_iff_not, not_or] at uninvolved
      rw [perform, recordKill]
      split
      · rw [recordDeath, player_change_of_ne _ _ uninvolved.2]
      · dsimp only
        rw [recordDeath, player_change_of_ne _ _ uninvolved.2,
          player_change_of_ne _ _ uninvolved.2,
          player_change_of_ne _ _ uninvolved.1]
  | _ => exact player_change_of_ne _ _ (of_decide_eq_false uninvolved)

theorem player_run_of_uninvolved (tally : Tally) {calls : List Call}
    {slot : Slot} (uninvolved : ∀ call ∈ calls, call.involves slot = false) :
    (tally.run calls).player slot = tally.player slot := by
  induction calls generalizing tally with
  | nil => rfl
  | cons call rest ih =>
      obtain ⟨first, later⟩ := List.forall_mem_cons.mp uninvolved
      exact (ih (tally.perform call) later).trans
        (tally.player_perform_of_uninvolved first)

end Tally

section Damage

variable {World : Type} [GameWorld World] {charge : Charge} {world : World}
  {victim : Slot} {amount : Int32}

theorem mem_calls_cases {call : Tally.Call}
    (member : call ∈ charge.calls world victim amount) :
    call = .recordShot charge.attacker charge.weapon ∨
    call = .recordHit charge.attacker victim charge.weapon amount
      charge.region ∨
    call = .recordKill charge.attacker victim charge.weapon
      (charge.region == some .head)
      (areTeammates world charge.attacker victim) := by
  rcases List.mem_append.mp member with before | kill
  · rcases List.mem_append.mp before with shot | hit
    · rw [Charge.shots, List.mem_ite_nil_right] at shot
      exact .inl (List.mem_singleton.mp shot.2)
    · rw [Resolution.hits, List.mem_ite_nil_left] at hit
      exact .inr (.inl (List.mem_singleton.mp hit.2))
  · rw [Resolution.kills, List.mem_ite_nil_right] at kill
    exact .inr (.inr (List.mem_singleton.mp kill.2))

theorem recording_of_mem_calls {call : Tally.Call}
    (member : call ∈ charge.calls world victim amount) :
    call.isRecording = true := by
  rcases mem_calls_cases member with rfl | rfl | rfl <;> rfl

theorem involves_of_mem_calls {slot : Slot}
    (notAttacker : slot ≠ charge.attacker) (notVictim : slot ≠ victim)
    {call : Tally.Call}
    (member : call ∈ charge.calls world victim amount) :
    call.involves slot = false := by
  rcases mem_calls_cases member with rfl | rfl | rfl
  · exact decide_eq_false notAttacker.symm
  · exact decide_eq_false (not_or.mpr ⟨notAttacker.symm, notVictim.symm⟩)
  · exact decide_eq_false (not_or.mpr ⟨notAttacker.symm, notVictim.symm⟩)

theorem run_calls_of_self (tally : Tally) (self : charge.attacker = victim) :
    tally.run (charge.calls world victim amount) =
      if GameWorld.isAlive world victim then tally.run charge.shots
      else (tally.run charge.shots).recordDeath victim := by
  have unhit : (charge.resolution world victim amount).hits = [] := if_pos self
  rw [Charge.calls, unhit, List.append_nil, Tally.run_append]
  cases alive : GameWorld.isAlive world victim with
  | true => simp [Resolution.kills, Charge.resolution, alive, Tally.run_nil]
  | false =>
      simp [Resolution.kills, Charge.resolution, alive, Tally.run,
        Tally.perform, Tally.recordKill, self]

section Report

variable {scene : Scene World} {victim : Slot} {report : DamageReport}
  (waits : (GameWorld.takeDamage scene.world victim).1 = some report)

include waits

theorem resolveDamage_of_idle
    (idle : report.amount = 0 ∨ GameWorld.entityValid
      (GameWorld.takeDamage scene.world victim).2 report.inflictor = false) :
    resolveDamage scene victim =
      (none, { scene with
        world := (GameWorld.takeDamage scene.world victim).2 }) := by
  have dropped : Session.waitingBlow? scene.world victim = none := by
    simpa [Session.waitingBlow?, waits, or_iff_not_imp_left] using idle
  rw [Session.resolveDamage_eq, dropped]

theorem resolveDamage_of_valid {log : FlightLog}
    (keeps : scene.attributor.projectiles.Keeps log)
    (hurts : report.amount ≠ 0)
    (valid : GameWorld.entityValid (GameWorld.takeDamage scene.world victim).2
      report.inflictor = true) :
    let world := (GameWorld.takeDamage scene.world victim).2
    ∃ charge, Charged world scene.tally log victim report.inflictor charge ∧
      (resolveDamage scene victim).1 =
        some (charge.resolution world victim report.amount) ∧
      (resolveDamage scene victim).2.world = world ∧
      (resolveDamage scene victim).2.tally =
        scene.tally.run (charge.calls world victim report.amount) := by
  intro world
  have waiting : Session.waitingBlow? scene.world victim =
      some { victim := victim, report := report, world := world } := by
    simp [Session.waitingBlow?, waits, hurts, valid, world]
  obtain ⟨charge, charged, blamed, strokes⟩ :=
    exists_charged keeps world scene.tally victim report.inflictor
      report.amount
  have recorded := tally_recordDamage world scene.tally victim
    (culpritOf scene.attributor world report.inflictor).1 report.amount
  rw [strokes, killCalls_of_blamed report.amount blamed] at recorded
  simp only [Session.resolveDamage_eq, waiting]
  exact ⟨charge, charged,
    congrArg some (recordDamage_of_blamed report.amount blamed), trivial,
    recorded⟩

end Report

/-- Damage that waits is taken in any case.  Without an amount or a valid
inflictor it is dropped and nothing else happens.  Otherwise it is charged in
order, and resolved as charged: it is a teamkill if the attacker is another
player who is known to be on the victim's team.  A blow is recorded as a shot,
then a hit of another player, then a kill of a dead one, in the head if that was
the region.  To kill oneself is a death only, and nobody but attacker and victim
changes. -/
theorem damage_charged_in_order (scene : Scene World) (victim : Slot)
    {report : DamageReport} {asked : List ProjectilePool.Call}
    (waits : (GameWorld.takeDamage scene.world victim).1 = some report)
    (tracked : scene.attributor.projectiles =
      ({} : ProjectilePool).run asked) :
    let world := (GameWorld.takeDamage scene.world victim).2
    let log := asked.foldl FlightLog.perform {}
    let result := (resolveDamage scene victim).1
    let after := (resolveDamage scene victim).2
    after.world = world ∧
    (report.amount = 0 ∨
        GameWorld.entityValid world report.inflictor = false →
      result = none ∧ after.tally = scene.tally ∧
      after.attributor = scene.attributor) ∧
    (report.amount ≠ 0 → GameWorld.entityValid world report.inflictor = true →
      ∃ charge, Charged world scene.tally log victim report.inflictor charge ∧
        let resolution := charge.resolution world victim report.amount
        let calls := charge.calls world victim report.amount
        result = some resolution ∧
        (resolution.teamkill = true ↔ charge.attacker ≠ victim ∧
          ∃ team, GameWorld.team world charge.attacker = some team ∧
            GameWorld.team world victim = some team) ∧
        after.tally = scene.tally.run calls ∧
        (∀ place, after.tally.block place =
          (scene.tally.block place).mergeAll
            (calls.filterMap (scene.tally.part? place))) ∧
        (charge.attacker = victim →
          after.tally =
            let counted := scene.tally.run charge.shots
            if GameWorld.isAlive world victim then counted
            else counted.recordDeath victim) ∧
        ∀ slot, slot ≠ charge.attacker → slot ≠ victim →
          after.tally.player slot = scene.tally.player slot) := by
  intro world log result after
  have keeps : scene.attributor.projectiles.Keeps log := by
    rw [tracked]
    exact ProjectilePool.keeps_empty.run asked
  have dropped := resolveDamage_of_idle waits
  have counted := resolveDamage_of_valid waits keeps
  refine ⟨?_, ?_, ?_⟩
  · by_cases idle : report.amount = 0 ∨
        GameWorld.entityValid world report.inflictor = false
    · exact congrArg (Scene.world ∘ Prod.snd) (dropped idle)
    · rw [not_or, Bool.not_eq_false] at idle
      obtain ⟨_, _, _, taken, _⟩ := counted idle.1 idle.2
      exact taken
  · intro idle
    simp only [result, after, dropped idle, and_self]
  · intro hurts valid
    obtain ⟨charge, charged, resolved, _, tally⟩ := counted hurts valid
    refine ⟨charge, charged, resolved,
      areTeammates_iff world charge.attacker victim, tally, ?_, ?_, ?_⟩
    · intro place
      exact (congrArg (·.block place) tally).trans
        (Tally.block_run (fun _ => recording_of_mem_calls) scene.tally place)
    · intro self
      exact tally.trans (run_calls_of_self scene.tally self)
    · intro slot notAttacker notVictim
      exact (congrArg (·.player slot) tally).trans
        (scene.tally.player_run_of_uninvolved fun _ =>
          involves_of_mem_calls notAttacker notVictim)

/-- Ann strikes bob's head with the butt of the rifle that she carries, while
her entity is also tracked as a rocket of cat's.  Bob is on her team, and
dead. -/
theorem blow_charged_to_owner :
    let ann : Slot := { index := 0 }
    let bob : Slot := { index := 1 }
    let cat : Slot := { index := 2 }
    let garand : Weapon := ⟨5⟩
    let butt : Weapon := ⟨38⟩
    let joined := ScriptedWorld.empty.join ann 1
    let entity := joined.1
    let armed := (joined.2.join bob 1).2.setEquipped ann (some butt)
    let scene : Scene ScriptedWorld :=
      { world := (armed.setAlive bob false).hurt bob entity 50
        tally := (Tally.new PointTable.blank).run
          [.setHeld ann garand, .setLastRegion ann (some .head)]
        attributor :=
          { projectiles := ({} : ProjectilePool).run
              [.put entity 0 8 Weapon.bazooka cat]
            rocketWindow := 8 } }
    let after := (resolveDamage scene bob).2
    let annAfter := (after.tally.player ann).session.total
    garand.facts.placeholder = true ∧
    after.world.waiting? bob = none ∧
    (resolveDamage scene bob).1 = some
      { attacker := ann
        victim := bob
        weapon := butt
        amount := 50
        region := some .head
        teamkill := true
        killed := true } ∧
    [Counter.shots, .hits, .kills, .headshots, .teamkills].map annAfter.get =
      [1, 1, 1, 1, 1] ∧
    after.tally.player cat = scene.tally.player cat := by
  intro ann bob cat garand butt joined entity armed scene after annAfter
  have waits : (GameWorld.takeDamage scene.world bob).1 =
      some { inflictor := entity, amount := 50 } := by decide +kernel
  have here : GameWorld.playerOf (GameWorld.takeDamage scene.world bob).2
      entity = some ann := by decide +kernel
  have apart : cat ≠ ann ∧ cat ≠ bob := by decide
  obtain ⟨taken, _, counts⟩ := damage_charged_in_order scene bob waits rfl
  obtain ⟨charge, charged, resolved, _, _, _, _, spared⟩ :=
    counts (by decide) (by decide +kernel)
  cases charged with
  | owner owns held =>
      obtain rfl := Option.some.inj (owns.symm.trans here)
      refine ⟨by decide, ?_, ?_, by decide +kernel, spared cat apart.1 apart.2⟩
      · rw [taken]
        exact scene.world.waiting?_takeDamage bob
      · rw [resolved, held]
        decide +kernel
  | sender unowned newest => exact absurd (unowned.symm.trans here) nofun
  | victim unowned landed => exact absurd (unowned.symm.trans here) nofun

end Damage

end Fragboard.Match
