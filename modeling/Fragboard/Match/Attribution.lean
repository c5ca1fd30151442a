import Fragboard.Match.Event
import Fragboard.Match.Projectile
import Fragboard.Match.Tally
import Fragboard.Match.World

/-!
# Attribution

Turns weapon records, damage and traces into shots, hits and kills of players.

Damage belongs to the player whose entity dealt it; else to whoever sent the
projectile that dealt it, while that is tracked; else to nobody, and then it
counts as the victim's own.
-/

namespace Fragboard.Match

/-- What the engine says about the weapon in a player's hands. -/
structure WeaponRecord where
  /-- The weapon is the one in use. -/
  active : Bool := false
  weapon : Int32 := 0
  /-- Negative for weapons without a clip. -/
  clip : Int32 := 0
deriving DecidableEq

inductive Culprit where
  /-- The player whose entity dealt it. -/
  | shooter (player : Slot)
  /-- The sender of the projectile that dealt it, and its weapon. -/
  | sender (player : Slot) (weapon : Weapon)
  | nobody
deriving DecidableEq

structure Resolution where
  attacker : Slot
  victim : Slot
  weapon : Weapon
  amount : Int32
  region : Option BodyRegion
  teamkill : Bool
  killed : Bool
deriving DecidableEq

namespace Resolution

def damageEvent (resolution : Resolution) : Event :=
  .damage resolution.attacker resolution.victim resolution.amount
    resolution.weapon resolution.region resolution.teamkill

def deathEvent? (resolution : Resolution) : Option Event :=
  if resolution.killed then
    some (.death resolution.attacker resolution.victim resolution.weapon
      resolution.region resolution.teamkill)
  else
    none

def events (resolution : Resolution) : List Event :=
  resolution.damageEvent :: resolution.deathEvent?.toList

end Resolution

/-- Projectiles by the class of their entity. -/
inductive ProjectileKind where
  | grenade
  | rocket
deriving DecidableEq

/-- The kind and the weapon of the projectiles of an entity class. -/
def projectileOfClass? : String → Option (ProjectileKind × Weapon)
  | "grenade" => some (.grenade, Weapon.handGrenade)
  | "grenade2" => some (.grenade, Weapon.stickGrenade)
  | "shell_bazooka" => some (.rocket, Weapon.bazooka)
  | "shell_pschreck" => some (.rocket, Weapon.panzerschreck)
  | "shell_piat" => some (.rocket, Weapon.piat)
  | _ => none

/-- How long a grenade can be attributed, in seconds. -/
def grenadeWindow : Float32 := 2

/-- What attribution remembers in the course of a match. -/
structure Attributor where
  projectiles : ProjectilePool := {}
  /-- The allies are British: their hand grenades are Mills bombs. -/
  britishAllies : Bool := false
  /-- How long a rocket can be attributed, in seconds. -/
  rocketWindow : Float32

variable {World : Type} [GameWorld World]

/-- The weapon itself, or the variant that the player has equipped where the
weapon only stands for one. -/
def trueWeapon (world : World) (player : Slot) (weapon : Weapon) : Weapon :=
  if weapon.facts.placeholder then
    (GameWorld.equippedWeapon world player).getD weapon
  else
    weapon

/-- Going from one clip to another takes exactly one shot. -/
def isOneShot (weapon : Weapon) (before : Option Int32) (after : Int32) :
    Bool :=
  match before with
  | none => false
  | some clip =>
    0 ≤ clip.toInt && 0 ≤ after.toInt &&
      clip.toInt - after.toInt == weapon.facts.clipStep

namespace Attributor

def clearProjectiles (attributor : Attributor) : Attributor :=
  { attributor with projectiles := attributor.projectiles.clear }

end Attributor

/-- Takes in a weapon record: the weapon is held from now on, a drop of its clip
by one step is a shot, and a change from one weapon to another is reported. -/
def weaponSwitch (world : World) (tally : Tally) (player : Slot)
    (record : WeaponRecord) : Option Event × Tally :=
  match record.active, Weapon.ofNumber? record.weapon with
  | true, some named =>
    let weapon := trueWeapon world player named
    let (previous, tally) := tally.setHeld player weapon
    let (before, tally) := tally.swapClip player weapon record.clip
    let tally :=
      if isOneShot weapon before record.clip then tally.recordShot player weapon
      else tally
    let changed := weapon ≠ previous ∧ weapon ≠ Weapon.unarmed ∧
      previous ≠ Weapon.unarmed
    (if changed then some (.weaponSwitch player previous weapon) else none,
      tally)
  | _, _ => (none, tally)

/-- Finds out who stands behind the entity that dealt damage. -/
def culpritOf (attributor : Attributor) (world : World)
    (inflictor : EntityHandle) : Culprit × Attributor :=
  match GameWorld.playerOf world inflictor with
  | some player => (.shooter player, attributor)
  | none =>
    let (owner, projectiles) :=
      attributor.projectiles.findOwner inflictor (GameWorld.now world)
    let culprit :=
      match owner with
      | some (player, weapon) => .sender player weapon
      | none => .nobody
    (culprit, { attributor with projectiles := projectiles })

/-- The attacker, the weapon and the region that a culprit stands for. -/
def blame (world : World) (tally : Tally) (victim : Slot) :
    Culprit → Slot × Weapon × Option BodyRegion
  | .shooter player =>
    (player, trueWeapon world player (tally.player player).held,
      (tally.player player).lastRegion)
  | .sender player weapon => (player, weapon, none)
  | .nobody => (victim, Weapon.unarmed, none)

/-- A blow that lands counts as a shot of its melee weapon. -/
def countBlow (tally : Tally) (culprit : Culprit) (weapon : Weapon) : Tally :=
  match culprit with
  | .shooter player =>
    if weapon.facts.melee then tally.recordShot player weapon else tally
  | _ => tally

/-- Two different players are known to be on one team. -/
def areTeammates (world : World) (attacker victim : Slot) : Bool :=
  attacker ≠ victim &&
    match GameWorld.team world attacker, GameWorld.team world victim with
    | some first, some second => first == second
    | _, _ => false

def recordDamage (world : World) (tally : Tally) (victim : Slot)
    (culprit : Culprit) (amount : Int32) : Resolution × Tally :=
  let (attacker, weapon, region) := blame world tally victim culprit
  let tally := countBlow tally culprit weapon
  let teamkill := areTeammates world attacker victim
  let tally :=
    if attacker = victim then tally
    else tally.recordHit attacker victim weapon amount region
  let killed := !GameWorld.isAlive world victim
  let tally :=
    if killed then
      tally.recordKill attacker victim weapon (region == some .head) teamkill
    else
      tally
  ({ attacker := attacker
     victim := victim
     weapon := weapon
     amount := amount
     region := region
     teamkill := teamkill
     killed := killed }, tally)

structure Scene (World : Type) where
  world : World
  tally : Tally
  attributor : Attributor

/-- Takes the damage that waits for a player and records it.  No damage, and
damage by something that no longer exists, is dropped. -/
def resolveDamage (scene : Scene World) (victim : Slot) :
    Option Resolution × Scene World :=
  let (report, world) := GameWorld.takeDamage scene.world victim
  let scene := { scene with world := world }
  match report with
  | none => (none, scene)
  | some report =>
    if report.amount = 0 ∨ !GameWorld.entityValid world report.inflictor then
      (none, scene)
    else
      let (culprit, attributor) :=
        culpritOf scene.attributor world report.inflictor
      let (resolution, tally) :=
        recordDamage world scene.tally victim culprit report.amount
      (some resolution, { scene with tally := tally, attributor := attributor })

/-- Notes the region that a player's shot was traced to. -/
def aimTrace (tally : Tally) (shooter : Slot) (hitGroup : Int32) : Tally :=
  tally.setLastRegion shooter (BodyRegion.ofHitGroup? hitGroup)

/-- Takes in the trace of a projectile: it counts as a shot and is tracked from
now on.  Entities of other classes are ignored. -/
def projectileTrace (attributor : Attributor) (now : Float32) (tally : Tally)
    (owner : Slot) (projectile : EntityHandle) (className : String)
    (position : Position) : Option Event × Tally × Attributor :=
  let track (weapon : Weapon) (window : Float32) : Attributor :=
    { attributor with
      projectiles :=
        attributor.projectiles.put projectile now window weapon owner }
  match projectileOfClass? className with
  | none => (none, tally, attributor)
  | some (.grenade, named) =>
    let weapon :=
      if named = Weapon.handGrenade ∧ attributor.britishAllies then
        Weapon.millsBomb
      else
        named
    (some (.grenadeExplosion owner projectile position weapon),
      tally.recordShot owner weapon, track weapon grenadeWindow)
  | some (.rocket, weapon) =>
    (some (.rocketExplosion owner projectile position weapon),
      tally.recordShot owner weapon, track weapon attributor.rocketWindow)

end Fragboard.Match
