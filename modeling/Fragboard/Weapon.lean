import Fragboard.Cells

/-!
# Weapons

The catalogue states, for each weapon, what the tracker needs in order to turn
the engine's signals into shots and points.
-/

namespace Fragboard

/-- The number of weapons, "no weapon" included. -/
abbrev weaponCount : Nat := 42

structure Weapon where
  index : Fin weaponCount
deriving DecidableEq

structure WeaponFacts where
  /-- Short name, also the key of the weapon in a point table. -/
  name : String
  /-- A melee weapon counts a shot when its damage lands. -/
  melee : Bool := false
  /-- The weapon stands for whichever variant the player has equipped. -/
  placeholder : Bool := false
  /-- The drop of the clip that means exactly one trigger pull. -/
  clipStep : Int := 1
  /-- The reserve that the weapon draws on. -/
  ammoSlot : Option UInt8 := none

private def blade (name : String) : WeaponFacts :=
  { name := name, melee := true }

private def gun (name : String) (ammoSlot : UInt8) : WeaponFacts :=
  { name := name, ammoSlot := some ammoSlot }

private def rifle (name : String) (ammoSlot : UInt8) : WeaponFacts :=
  { name := name, placeholder := true, ammoSlot := some ammoSlot }

/-- The facts of every weapon, in the order of the engine's numbers. -/
def weaponCatalogue : Vector WeaponFacts weaponCount := #v[
  { name := "none" },
  blade "amerknife",
  blade "gerknife",
  gun "colt" 1,
  gun "luger" 2,
  rifle "garand" 3,
  gun "scopedkar" 4,
  gun "thompson" 5,
  gun "mp44" 6,
  gun "spring" 3,
  rifle "kar" 4,
  gun "bar" 7,
  gun "mp40" 8,
  gun "handgrenade" 9,
  gun "stickgrenade" 10,
  gun "stickgrenade_ex" 10,
  gun "handgrenade_ex" 9,
  { name := "mg42", clipStep := 2, ammoSlot := some 11 },
  gun "30cal" 12,
  blade "spade",
  gun "m1carbine" 13,
  gun "mg34" 11,
  gun "greasegun" 5,
  gun "fg42" 14,
  rifle "k43" 15,
  rifle "enfield" 16,
  gun "sten" 17,
  gun "bren" 18,
  gun "webley" 19,
  gun "bazooka" 20,
  gun "pschreck" 20,
  gun "piat" 20,
  gun "scoped_fg42" 14,
  gun "fcarbine" 13,
  blade "bayonet",
  gun "scoped_enfield" 16,
  gun "mills_bomb" 9,
  blade "brit_knife",
  blade "garandbutt",
  blade "enf_bayonet",
  gun "mortar" 21,
  blade "k43butt"
]

namespace Weapon

/-- No weapon: damage by oneself or by the surroundings. -/
def unarmed : Weapon := ⟨0⟩

def handGrenade : Weapon := ⟨13⟩
def stickGrenade : Weapon := ⟨14⟩
def bazooka : Weapon := ⟨29⟩
def panzerschreck : Weapon := ⟨30⟩
def piat : Weapon := ⟨31⟩
def millsBomb : Weapon := ⟨36⟩

instance : Inhabited Weapon :=
  ⟨unarmed⟩

def number (weapon : Weapon) : Nat :=
  weapon.index.val

/-- The weapon with a number, none outside the catalogue. -/
def ofNumber? (number : Int32) : Option Weapon :=
  let position := number.toInt
  if inside : 0 ≤ position ∧ position.toNat < weaponCount then
    some { index := ⟨position.toNat, inside.2⟩ }
  else
    none

def all : List Weapon :=
  (List.finRange weaponCount).map Weapon.mk

def facts (weapon : Weapon) : WeaponFacts :=
  weaponCatalogue[weapon.index]

def name (weapon : Weapon) : String :=
  weapon.facts.name

def named? (name : String) : Option Weapon :=
  all.find? fun weapon => weapon.name == name

/-- The weapons that draw on one reserve. -/
def sharingAmmo (ammoSlot : UInt8) : List Weapon :=
  all.filter fun weapon => weapon.facts.ammoSlot == some ammoSlot

theorem mem_all (weapon : Weapon) : weapon ∈ all := by
  simp [all, List.mem_map]

end Weapon

/-- One value for every weapon. -/
abbrev Arsenal (α : Type) := Cells weaponCount α

end Fragboard
