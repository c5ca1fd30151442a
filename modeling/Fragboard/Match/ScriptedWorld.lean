import Fragboard.Match.World

/-!
# A scripted game world

`ScriptedWorld` is a game world in memory whose every change is made by its
caller.  A player who joins again gets the next generation of the entity held
before.
-/

namespace Fragboard.Match

structure ScriptedPlayer where
  entity : EntityHandle
  inGame : Bool := true
  alive : Bool := true
  team : Option Int32
  bot : Bool := false
  equipped : Option Weapon := none
  pendingDamage : Option DamageReport := none
  nearObject : Option EntityHandle := none
deriving DecidableEq

structure ScriptedWorld where
  time : Float32
  players : Roster (Option ScriptedPlayer)
  /-- The entities that exist, each with its position. -/
  entities : List (EntityHandle × Position)
  /-- The row of the next entity that is not a player's. -/
  nextIndex : UInt32

namespace ScriptedWorld

def empty : ScriptedWorld :=
  { time := 0
    players := Cells.fill none
    entities := []
    nextIndex := UInt32.ofNat (slotCount + 1) }

def setTime (world : ScriptedWorld) (time : Float32) : ScriptedWorld :=
  { world with time := time }

def advance (world : ScriptedWorld) (seconds : Float32) : ScriptedWorld :=
  { world with time := world.time + seconds }

def player? (world : ScriptedWorld) (slot : Slot) : Option ScriptedPlayer :=
  world.players.get slot.index

def changePlayer (world : ScriptedWorld) (slot : Slot)
    (change : ScriptedPlayer → ScriptedPlayer) : ScriptedWorld :=
  { world with players := world.players.alter slot.index (·.map change) }

def positionOf (world : ScriptedWorld) (entity : EntityHandle) :
    Option Position :=
  world.entities.lookup entity

def entityValid (world : ScriptedWorld) (entity : EntityHandle) : Bool :=
  (world.positionOf entity).isSome

def free (world : ScriptedWorld) (entity : EntityHandle) : ScriptedWorld :=
  { world with entities := world.entities.filter (·.1 != entity) }

def place (world : ScriptedWorld) (entity : EntityHandle)
    (position : Position) : ScriptedWorld :=
  { world with entities := (entity, position) :: (world.free entity).entities }

/-- Puts a living player on a team, with an entity of its own. -/
def join (world : ScriptedWorld) (slot : Slot) (team : Int32) :
    EntityHandle × ScriptedWorld :=
  let entity :=
    match world.player? slot with
    | some previous => previous.entity.nextGeneration
    | none => { index := UInt32.ofNat slot.number, generation := 0 }
  let player : ScriptedPlayer := { entity := entity, team := some team }
  let placed := world.place entity Position.origin
  (entity,
    { placed with players := placed.players.set slot.index (some player) })

/-- Takes a player out of the game and frees its entity. -/
def leave (world : ScriptedWorld) (slot : Slot) : ScriptedWorld :=
  match world.player? slot with
  | none => world
  | some player =>
    (world.changePlayer slot fun player => { player with inGame := false }).free
      player.entity

def spawn (world : ScriptedWorld) (position : Position) :
    EntityHandle × ScriptedWorld :=
  let entity : EntityHandle := { index := world.nextIndex, generation := 0 }
  (entity,
    { world.place entity position with nextIndex := world.nextIndex + 1 })

def hurt (world : ScriptedWorld) (victim : Slot) (inflictor : EntityHandle)
    (amount : Int32) : ScriptedWorld :=
  world.changePlayer victim fun player =>
    { player with
      pendingDamage := some { inflictor := inflictor, amount := amount } }

def setAlive (world : ScriptedWorld) (slot : Slot) (alive : Bool) :
    ScriptedWorld :=
  world.changePlayer slot fun player => { player with alive := alive }

def setEquipped (world : ScriptedWorld) (slot : Slot)
    (weapon : Option Weapon) : ScriptedWorld :=
  world.changePlayer slot fun player => { player with equipped := weapon }

def setBot (world : ScriptedWorld) (slot : Slot) (bot : Bool) :
    ScriptedWorld :=
  world.changePlayer slot fun player => { player with bot := bot }

def setTeam (world : ScriptedWorld) (slot : Slot) (team : Option Int32) :
    ScriptedWorld :=
  world.changePlayer slot fun player => { player with team := team }

def setInGame (world : ScriptedWorld) (slot : Slot) (inGame : Bool) :
    ScriptedWorld :=
  world.changePlayer slot fun player => { player with inGame := inGame }

def setNear (world : ScriptedWorld) (slot : Slot)
    (object : Option EntityHandle) : ScriptedWorld :=
  world.changePlayer slot fun player => { player with nearObject := object }

/-- Places a new objective within a player's reach. -/
def placeObject (world : ScriptedWorld) (slot : Slot) (position : Position) :
    EntityHandle × ScriptedWorld :=
  let (object, placed) := world.spawn position
  (object, placed.setNear slot (some object))

/-- The player in the game to whom an existing entity belongs. -/
def playerOf (world : ScriptedWorld) (entity : EntityHandle) : Option Slot :=
  if world.entityValid entity then
    Slot.all.find? fun slot =>
      (world.player? slot).any fun player =>
        player.inGame && player.entity == entity
  else
    none

def playerValid (world : ScriptedWorld) (slot : Slot) : Bool :=
  (world.player? slot).any fun player =>
    player.inGame && world.entityValid player.entity

def takeDamage (world : ScriptedWorld) (slot : Slot) :
    Option DamageReport × ScriptedWorld :=
  ((world.player? slot).bind (·.pendingDamage),
    world.changePlayer slot fun player => { player with pendingDamage := none })

instance : GameWorld ScriptedWorld where
  now world := world.time
  entityValid := entityValid
  playerOf := playerOf
  playerValid := playerValid
  isAlive world slot := (world.player? slot).any (·.alive)
  team world slot := (world.player? slot).bind (·.team)
  isBot world slot := (world.player? slot).any (·.bot)
  equippedWeapon world slot := (world.player? slot).bind (·.equipped)
  takeDamage := takeDamage
  objectNear world slot :=
    ((world.player? slot).bind (·.nearObject)).filter world.entityValid
  positionOf := positionOf

end ScriptedWorld

end Fragboard.Match
