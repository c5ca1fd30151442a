import Fragboard.Points
import Fragboard.Slot

/-!
# Tallies

A `Tally` holds the counters of every player over three spans of time: the
present life, the present round and the session.  Whatever is recorded counts in
all three at once, in the total and under one weapon.  For the session it is
also kept who did what to whom.

Clears of the life and of the round are scheduled and come due at the first poll
at or after their time, so that what is still under way finds the old values.
-/

namespace Fragboard.Match

inductive Scope where
  | life
  | round
  | session
deriving DecidableEq

inductive Filter where
  | all
  | weapon (weapon : Weapon)
  /-- What an opponent did to the player. -/
  | attacker (opponent : Slot)
  /-- What the player did to an opponent. -/
  | victim (opponent : Slot)
deriving DecidableEq

structure ScopeTally where
  total : StatBlock := StatBlock.zero
  byWeapon : Arsenal StatBlock := Cells.fill StatBlock.zero
deriving DecidableEq

structure Duel where
  stats : StatBlock := StatBlock.zero
  /-- The opponent's name at the last hit. -/
  name : String := ""
deriving DecidableEq

/-- A clear of the life counters that is yet to come. -/
structure PendingClear where
  due : Float32
  /-- The round, the session and the duels are cleared as well. -/
  full : Bool
deriving DecidableEq

/-- The clears that came due at a poll. -/
structure DueClears where
  /-- Whether a clear of the life is due, and whether it is a full one. -/
  life : Option Bool := none
  round : Bool := false
deriving DecidableEq

structure PlayerTally where
  life : ScopeTally := {}
  round : ScopeTally := {}
  session : ScopeTally := {}
  attackers : Roster Duel := Cells.fill {}
  victims : Roster Duel := Cells.fill {}
  /-- The clip that each weapon was last seen with. -/
  clips : Arsenal (Option Int32) := Cells.fill none
  ammo : Arsenal Int32 := Cells.fill 0
  held : Weapon := Weapon.unarmed
  /-- The region of the player's latest traced hit. -/
  lastRegion : Option BodyRegion := none
  name : String := ""
  pendingLife : Option PendingClear := none
  pendingRound : Option Float32 := none
deriving DecidableEq

namespace ScopeTally

/-- Records something under a weapon and in the total. -/
def record (tally : ScopeTally) (weapon : Weapon)
    (change : StatBlock → StatBlock) : ScopeTally :=
  { total := change tally.total
    byWeapon := tally.byWeapon.alter weapon.index change }

end ScopeTally

namespace PlayerTally

def scope (player : PlayerTally) : Scope → ScopeTally
  | .life => player.life
  | .round => player.round
  | .session => player.session

def record (player : PlayerTally) (weapon : Weapon)
    (change : StatBlock → StatBlock) : PlayerTally :=
  { player with
    life := player.life.record weapon change
    round := player.round.record weapon change
    session := player.session.record weapon change }

def changeVictim (player : PlayerTally) (victim : Slot)
    (change : Duel → Duel) : PlayerTally :=
  { player with victims := player.victims.alter victim.index change }

def changeAttacker (player : PlayerTally) (attacker : Slot)
    (change : Duel → Duel) : PlayerTally :=
  { player with attackers := player.attackers.alter attacker.index change }

/-- The duel that a filter selects, if anything was ever hit in it. -/
def duel? (player : PlayerTally) (filter : Filter) : Option Duel :=
  let selected? : Option Duel :=
    match filter with
    | .attacker opponent => some (player.attackers.get opponent.index)
    | .victim opponent => some (player.victims.get opponent.index)
    | .all => none
    | .weapon _ => none
  selected?.filter fun duel => duel.stats.get .hits != 0

/-- The selected counters.  Totals are always present; a weapon needs a shot,
and a duel needs a hit and the session as its scope. -/
def query (player : PlayerTally) (scope : Scope) (filter : Filter) :
    Option StatBlock :=
  match filter with
  | .all => some (player.scope scope).total
  | .weapon weapon =>
    some ((player.scope scope).byWeapon.get weapon.index) |>.filter
      fun block => !block.hasNoShots
  | .attacker _ | .victim _ =>
    if scope = .session then (player.duel? filter).map Duel.stats else none

/-- Clears the life, and the round, the session and the duels too when the
clear is full. -/
def restart (player : PlayerTally) (full : Bool) : PlayerTally :=
  if full then
    { player with
      life := {}
      round := {}
      session := {}
      attackers := Cells.fill {}
      victims := Cells.fill {} }
  else
    { player with life := {} }

def takeDue (player : PlayerTally) (now : Float32) :
    DueClears × PlayerTally :=
  let life := player.pendingLife.filter fun pending => pending.due ≤ now
  let round := player.pendingRound.filter fun due => due ≤ now
  ({ life := life.map PendingClear.full, round := round.isSome },
    { player with
      pendingLife := if life.isSome then none else player.pendingLife
      pendingRound := if round.isSome then none else player.pendingRound })

end PlayerTally

structure Tally where
  players : Roster PlayerTally
  points : PointTable

namespace Tally

def new (points : PointTable) : Tally :=
  { players := Cells.fill {}, points := points }

def player (tally : Tally) (slot : Slot) : PlayerTally :=
  tally.players.get slot.index

def change (tally : Tally) (slot : Slot)
    (change : PlayerTally → PlayerTally) : Tally :=
  { tally with players := tally.players.alter slot.index change }

/-- Wipes a slot for a player who has just connected. -/
def resetPlayer (tally : Tally) (slot : Slot) (name : String) : Tally :=
  tally.change slot fun _ => { name := name }

def setName (tally : Tally) (slot : Slot) (name : String) : Tally :=
  tally.change slot fun player => { player with name := name }

def recordShot (tally : Tally) (slot : Slot) (weapon : Weapon) : Tally :=
  tally.change slot fun player => player.record weapon StatBlock.recordShot

/-- Records a hit on both sides: points go to the attacker alone, and each side
notes the name of the other. -/
def recordHit (tally : Tally) (attacker victim : Slot) (weapon : Weapon)
    (damage : Int32) (region : Option BodyRegion) : Tally :=
  let points := tally.points.hitPoints weapon
  let attackerName := (tally.player attacker).name
  let victimName := (tally.player victim).name
  let credited := tally.change attacker fun player =>
    (player.record weapon fun block =>
      (block.recordHit damage region).award points).changeVictim victim
      fun duel =>
        { stats := (duel.stats.recordHit damage region).award points
          name := victimName }
  credited.change victim fun player =>
    player.changeAttacker attacker fun duel =>
      { stats := duel.stats.recordHit damage region
        name := attackerName }

def recordDeath (tally : Tally) (victim : Slot) : Tally :=
  tally.change victim fun player =>
    player.record player.held StatBlock.recordDeath

/-- Records a kill on both sides and the death; killing oneself is a death
only. -/
def recordKill (tally : Tally) (attacker victim : Slot) (weapon : Weapon)
    (headshot teamkill : Bool) : Tally :=
  if attacker = victim then tally.recordDeath victim
  else
    let points := tally.points.killPoints weapon teamkill
    let credited := tally.change attacker fun player =>
      (player.record weapon fun block =>
        (block.recordKill headshot teamkill).award points).changeVictim victim
        fun duel =>
          { duel with
            stats := (duel.stats.recordKill headshot teamkill).award points }
    let noted := credited.change victim fun player =>
      player.changeAttacker attacker fun duel =>
        { duel with stats := duel.stats.recordKill headshot teamkill }
    noted.recordDeath victim

def awardObjective (tally : Tally) (slot : Slot) (points : Int32) : Tally :=
  tally.change slot fun player =>
    player.record player.held fun block => block.award points

/-- Puts a weapon into a player's hands and returns the one held before. -/
def setHeld (tally : Tally) (slot : Slot) (weapon : Weapon) : Weapon × Tally :=
  ((tally.player slot).held,
    tally.change slot fun player => { player with held := weapon })

def setLastRegion (tally : Tally) (slot : Slot)
    (region : Option BodyRegion) : Tally :=
  tally.change slot fun player => { player with lastRegion := region }

/-- Notes a clip and returns the one noted before. -/
def swapClip (tally : Tally) (slot : Slot) (weapon : Weapon) (clip : Int32) :
    Option Int32 × Tally :=
  ((tally.player slot).clips.get weapon.index,
    tally.change slot fun player =>
      { player with clips := player.clips.set weapon.index (some clip) })

def clip? (tally : Tally) (slot : Slot) (weapon : Weapon) : Option Int32 :=
  (tally.player slot).clips.get weapon.index

/-- Sets the reserve of every weapon that draws on an ammo slot. -/
def setAmmo (tally : Tally) (slot : Slot) (ammoSlot : UInt8)
    (amount : Int32) : Tally :=
  tally.change slot fun player =>
    { player with
      ammo := (Weapon.sharingAmmo ammoSlot).foldl
        (fun ammo weapon => ammo.set weapon.index amount) player.ammo }

def ammo (tally : Tally) (slot : Slot) (weapon : Weapon) : Int32 :=
  (tally.player slot).ammo.get weapon.index

def query (tally : Tally) (slot : Slot) (scope : Scope) (filter : Filter) :
    Option StatBlock :=
  (tally.player slot).query scope filter

def duel? (tally : Tally) (slot : Slot) (filter : Filter) : Option Duel :=
  (tally.player slot).duel? filter

/-- Schedules a clear of the life, in place of an earlier one. -/
def scheduleLife (tally : Tally) (slot : Slot) (due : Float32) (full : Bool) :
    Tally :=
  tally.change slot fun player =>
    { player with pendingLife := some { due := due, full := full } }

/-- Schedules a clear of the round, in place of an earlier one. -/
def scheduleRound (tally : Tally) (slot : Slot) (due : Float32) : Tally :=
  tally.change slot fun player => { player with pendingRound := some due }

def takeDue (tally : Tally) (slot : Slot) (now : Float32) :
    DueClears × Tally :=
  let (due, player) := (tally.player slot).takeDue now
  (due, tally.change slot fun _ => player)

def restart (tally : Tally) (slot : Slot) (full : Bool) : Tally :=
  tally.change slot fun player => player.restart full

def clearRound (tally : Tally) (slot : Slot) : Tally :=
  tally.change slot fun player => { player with round := {} }

end Tally

end Fragboard.Match
