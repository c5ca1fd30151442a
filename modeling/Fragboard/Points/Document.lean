import Fragboard.Points
import Fragboard.Rank.Error
import Fragboard.Toml.Reading

/-!
# Point tables in files

A `PointDocument` is what a point table file says: the weights of deaths and
headshots, default weights, and overrides by weapon name.  An override replaces
only the weights that it names, and a name that belongs to no weapon has no
effect.
-/

namespace Fragboard

open Storage (Bytes FileTree FilePath)
open Rank (RankError)

/-- The weights that a file changes for one weapon. -/
structure PointOverride where
  kill : Option Int32 := none
  hit : Option Int32 := none
  teamkill : Option Int32 := none
deriving DecidableEq

structure PointDocument where
  death : Int32 := 0
  headshot : Int32 := 0
  defaults : WeaponPoints := {}
  overrides : List (String × PointOverride) := []
deriving DecidableEq

namespace PointOverride

def applyTo (change : PointOverride) (base : WeaponPoints) : WeaponPoints :=
  { kill := change.kill.getD base.kill
    hit := change.hit.getD base.hit
    teamkill := change.teamkill.getD base.teamkill }

def read : Toml.Reader PointOverride := fun value => do
  let record ← Toml.Reader.record ["kill", "hit", "teamkill"] value
  .ok {
    kill := ← record.optionalField "kill" Toml.Reader.int32
    hit := ← record.optionalField "hit" Toml.Reader.int32
    teamkill := ← record.optionalField "teamkill" Toml.Reader.int32
  }

end PointOverride

def WeaponPoints.read : Toml.Reader WeaponPoints := fun value => do
  let record ← Toml.Reader.record ["kill", "hit", "teamkill"] value
  .ok {
    kill := ← record.field "kill" Toml.Reader.int32 0
    hit := ← record.field "hit" Toml.Reader.int32 0
    teamkill := ← record.field "teamkill" Toml.Reader.int32 0
  }

namespace PointDocument

def read : Toml.Reader PointDocument := fun value => do
  let record ←
    Toml.Reader.record ["death", "headshot", "default", "weapons"] value
  .ok {
    death := ← record.field "death" Toml.Reader.int32 0
    headshot := ← record.field "headshot" Toml.Reader.int32 0
    defaults := ← record.field "default" WeaponPoints.read {}
    overrides :=
      ← record.field "weapons" (Toml.Reader.table PointOverride.read) []
  }

def applyOverride (document : PointDocument) (table : PointTable)
    (entry : String × PointOverride) : PointTable :=
  match Weapon.named? entry.1 with
  | some weapon => table.setWeapon weapon (entry.2.applyTo document.defaults)
  | none => table

def table (document : PointDocument) : PointTable :=
  document.overrides.foldl document.applyOverride
    ((PointTable.uniform document.defaults).withBonuses
      document.death document.headshot)

end PointDocument

namespace PointTable

def parse (text : String) : Except RankError PointTable :=
  match Toml.Document.parse text >>= PointDocument.read with
  | .ok document => .ok document.table
  | .error fault => .error (.invalidPoints fault)

/-- Reads a point table out of what reading its file returned. -/
def ofContent (path : FilePath) : Except Storage.Fault Bytes →
    Except RankError PointTable
  | .error fault => .error (.ofFault path fault)
  | .ok bytes =>
    match String.fromUTF8? bytes.toByteArray with
    | some text => parse text
    | none =>
      .error (.storage path (.other "stream did not contain valid UTF-8"))

def load (tree : FileTree) (path : FilePath) : Except RankError PointTable :=
  ofContent path (tree.read path)

/-- The table that a read returned, the blank one if it failed. -/
def orBlank (result : Except RankError PointTable) : PointTable :=
  match result with
  | .ok table => table
  | .error _ => blank

end PointTable

end Fragboard
