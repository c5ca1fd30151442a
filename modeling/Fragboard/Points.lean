import Fragboard.Stats
import Fragboard.Weapon

/-!
# Point tables

A `PointTable` says how many points a hit, a kill and a teamkill earn with each
weapon, and how deaths and headshots weigh in the score of a leaderboard row.
-/

namespace Fragboard

structure WeaponPoints where
  kill : Int32 := 0
  hit : Int32 := 0
  teamkill : Int32 := 0
deriving DecidableEq

/-- The weights by which points and scores are computed. -/
structure PointTable where
  death : Int32
  headshot : Int32
  weapons : Arsenal WeaponPoints
deriving DecidableEq

namespace PointTable

/-- The same weights for every weapon, none for deaths and headshots. -/
def uniform (points : WeaponPoints) : PointTable :=
  { death := 0, headshot := 0, weapons := Cells.fill points }

def blank : PointTable :=
  uniform {}

instance : Inhabited PointTable :=
  ⟨blank⟩

def withBonuses (table : PointTable) (death headshot : Int32) : PointTable :=
  { table with death := death, headshot := headshot }

def setWeapon (table : PointTable) (weapon : Weapon) (points : WeaponPoints) :
    PointTable :=
  { table with weapons := table.weapons.set weapon.index points }

def weapon (table : PointTable) (weapon : Weapon) : WeaponPoints :=
  table.weapons.get weapon.index

/-- Points for a kill; a teamkill has a weight of its own. -/
def killPoints (table : PointTable) (weapon : Weapon) (teamkill : Bool) :
    Int32 :=
  if teamkill then (table.weapon weapon).teamkill
  else (table.weapon weapon).kill

def hitPoints (table : PointTable) (weapon : Weapon) : Int32 :=
  (table.weapon weapon).hit

/-- The score of a row: its points, then its weighted deaths, then its weighted
headshots, each step saturating. -/
def score (table : PointTable) (stats : StatBlock) : Int32 :=
  satAdd
    (satAdd (stats.get .points) (satMul table.death (stats.get .deaths)))
    (satMul table.headshot (stats.get .headshots))

end PointTable

end Fragboard
