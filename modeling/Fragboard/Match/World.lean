import Fragboard.Entity
import Fragboard.Slot
import Fragboard.Weapon

/-!
# The game world

`GameWorld` is all that the tracker asks of the engine.
-/

namespace Fragboard.Match

structure DamageReport where
  /-- The player, projectile or other entity that dealt it. -/
  inflictor : EntityHandle
  amount : Int32
deriving DecidableEq

class GameWorld (World : Type) where
  /-- The time of the match in seconds. -/
  now : World → Float32
  /-- The entity exists and has not been freed. -/
  entityValid : World → EntityHandle → Bool
  /-- The player in the game to whom an entity belongs. -/
  playerOf : World → EntityHandle → Option Slot
  /-- A player is in the game and its entity has not been freed. -/
  playerValid : World → Slot → Bool
  isAlive : World → Slot → Bool
  team : World → Slot → Option Int32
  isBot : World → Slot → Bool
  /-- The variant that the player really holds. -/
  equippedWeapon : World → Slot → Option Weapon
  /-- Takes the damage that waits for a player; it is taken once. -/
  takeDamage : World → Slot → Option DamageReport × World
  /-- An objective within the player's reach. -/
  objectNear : World → Slot → Option EntityHandle
  positionOf : World → EntityHandle → Option Position

end Fragboard.Match
