import Fragboard.Entity
import Fragboard.Slot
import Fragboard.Stats
import Fragboard.Weapon

/-!
# Match events

What a match reports to its observers, and the channel that carries the reports
in the order in which they were sent.
-/

namespace Fragboard.Match

inductive Event where
  /-- A player took up another weapon. -/
  | weaponSwitch (player : Slot) (old new : Weapon)
  /-- Damage was attributed; damage by nobody counts as the victim's own. -/
  | damage (attacker victim : Slot) (amount : Int32) (weapon : Weapon)
      (region : Option BodyRegion) (teamkill : Bool)
  /-- Attributed damage killed its victim. -/
  | death (killer victim : Slot) (weapon : Weapon)
      (region : Option BodyRegion) (teamkill : Bool)
  | score (player : Slot) (delta total : Int32)
  | teamScore (team score : Int32)
  | spawn (player : Slot)
  /-- A player raised or lowered a scope. -/
  | scope (player : Slot) (raised : Bool) (fieldOfView : Int32)
  /-- A player took up or dropped an objective. -/
  | objectPickup (player : Slot) (object : EntityHandle) (position : Position)
      (carrying : Bool)
  | grenadeExplosion (player : Slot) (projectile : EntityHandle)
      (position : Position) (weapon : Weapon)
  | rocketExplosion (player : Slot) (projectile : EntityHandle)
      (position : Position) (weapon : Weapon)
  /-- The statistics of a player should be stored now. -/
  | statsFlush (player : Slot)
deriving DecidableEq

/-- A queue of reports; all receivers take from the same queue. -/
structure Channel (α : Type) where
  queued : List α := []

namespace Channel

variable {α : Type}

def send (channel : Channel α) (report : α) : Channel α :=
  { queued := channel.queued ++ [report] }

def receive (channel : Channel α) : Option α × Channel α :=
  match channel.queued with
  | [] => (none, channel)
  | oldest :: others => (some oldest, { queued := others })

def drain (channel : Channel α) : List α × Channel α :=
  (channel.queued, { queued := [] })

def size (channel : Channel α) : Nat :=
  channel.queued.length

def isEmpty (channel : Channel α) : Bool :=
  channel.queued.isEmpty

end Channel

end Fragboard.Match
