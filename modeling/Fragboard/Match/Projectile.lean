import Fragboard.Entity
import Fragboard.Slot
import Fragboard.Weapon

/-!
# Projectiles in flight

Explosives do their damage after they have left their owner's hands.  A
`ProjectilePool` remembers for a limited time who sent which projectile.

Records live in a row of cells.  The cells of records that ran out are reused,
the most recently vacated first, so the order of the cells says nothing about
age; each record carries a serial number instead.
-/

namespace Fragboard.Match

structure Flight where
  handle : EntityHandle
  /-- The time from which the record no longer counts. -/
  expiresAt : Float32
  weapon : Weapon
  owner : Slot
  /-- Larger for records made later. -/
  serial : Nat
deriving DecidableEq

namespace Flight

def isExpired (flight : Flight) (now : Float32) : Bool :=
  flight.expiresAt ≤ now

end Flight

structure ProjectilePool where
  cells : List (Option Flight) := []
  /-- The empty cells, most recently vacated first. -/
  vacant : List Nat := []
  /-- The number for the next record.  As long as words of 64 bits last, they order
  the records in the same way (`ProjectilePool.words_order_records`). -/
  nextSerial : Nat := 0
  /-- The number of records, those that ran out unnoticed included. -/
  live : Nat := 0

namespace ProjectilePool

def put (pool : ProjectilePool) (handle : EntityHandle) (now delay : Float32)
    (weapon : Weapon) (owner : Slot) : ProjectilePool :=
  let flight : Flight :=
    { handle := handle
      expiresAt := now + delay
      weapon := weapon
      owner := owner
      serial := pool.nextSerial }
  match pool.vacant with
  | [] =>
    { cells := pool.cells ++ [some flight]
      vacant := []
      nextSerial := pool.nextSerial + 1
      live := pool.live + 1 }
  | cell :: others =>
    { cells := pool.cells.set cell (some flight)
      vacant := others
      nextSerial := pool.nextSerial + 1
      live := pool.live + 1 }

/-- A cell without its record, if that has run out. -/
def retain (now : Float32) (cell : Option Flight) : Option Flight :=
  cell.filter fun flight => !flight.isExpired now

/-- The indices, counted from a start, of the cells whose records have run
out. -/
def expiredFrom (now : Float32) : Nat → List (Option Flight) → List Nat
  | _, [] => []
  | index, cell :: others =>
    if cell.any (·.isExpired now) then
      index :: expiredFrom now (index + 1) others
    else
      expiredFrom now (index + 1) others

def sweep (pool : ProjectilePool) (now : Float32) : ProjectilePool :=
  let expired := expiredFrom now 0 pool.cells
  { pool with
    cells := pool.cells.map (retain now)
    vacant := expired.reverse ++ pool.vacant
    live := pool.live - expired.length }

/-- Of two records, the one made later. -/
def later (best : Option Flight) (flight : Flight) : Option Flight :=
  match best with
  | none => some flight
  | some previous =>
    if previous.serial < flight.serial then some flight else best

def latest? (pool : ProjectilePool) (handle : EntityHandle) : Option Flight :=
  ((pool.cells.filterMap id).filter (·.handle == handle)).foldl later none

/-- Drops what has run out and looks up who sent a projectile. -/
def findOwner (pool : ProjectilePool) (handle : EntityHandle) (now : Float32) :
    Option (Slot × Weapon) × ProjectilePool :=
  let swept := pool.sweep now
  ((swept.latest? handle).map fun flight => (flight.owner, flight.weapon), swept)

/-- Forgets every record; serial numbers go on. -/
def clear (pool : ProjectilePool) : ProjectilePool :=
  { pool with cells := [], vacant := [], live := 0 }

def isEmpty (pool : ProjectilePool) : Bool :=
  pool.live == 0

end ProjectilePool

end Fragboard.Match
