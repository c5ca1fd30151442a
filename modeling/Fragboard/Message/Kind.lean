import Fragboard.Slot

/-!
# Engine messages

The engine announces what happens as named messages whose fields arrive one by
one.  A `MessageKind` is a message that the tracker follows; its schema says
what each field means, by position, and what to do when the message ends.
-/

namespace Fragboard.Message

inductive MessageKind where
  | currentWeapon
  | objectiveScore
  | roundState
  | health
  | resetHud
  | teamScore
  | ammo
  | ammoShort
  | setFov
  | object
  | playerStatus
  | scoreShort
  | playerTeam
deriving DecidableEq

inductive FieldMeaning where
  | switchFlag
  | weaponNumber
  | clip
  | scorePlayer
  | scoreValue
  | roundState
  | teamIndex
  | teamScore
  | ammoSlot
  | ammoAmount
  | fieldOfView
  | objectName
  | statusPlayer
deriving DecidableEq

inductive EndAction where
  | weaponSwitch
  | damage
  | lifeReset
  | scopeCheck
  | objectToggle
deriving DecidableEq

structure Schema where
  fields : List FieldMeaning := []
  atEnd : Option EndAction := none
deriving DecidableEq

namespace MessageKind

/-- Every kind, in the order in which they are announced. -/
def all : List MessageKind :=
  [currentWeapon, objectiveScore, roundState, health, resetHud, teamScore,
    ammo, ammoShort, setFov, object, playerStatus, scoreShort, playerTeam]

/-- The place of the kind among all of them. -/
def ordinal (kind : MessageKind) : Fin all.length :=
  ⟨kind.ctorIdx, by cases kind <;> decide⟩

/-- The name by which the engine registers the message. -/
def name : MessageKind → String
  | currentWeapon => "CurWeapon"
  | objectiveScore => "ObjScore"
  | roundState => "RoundState"
  | health => "Health"
  | resetHud => "ResetHUD"
  | teamScore => "TeamScore"
  | ammo => "AmmoX"
  | ammoShort => "AmmoShort"
  | setFov => "SetFOV"
  | object => "Object"
  | playerStatus => "PStatus"
  | scoreShort => "ScoreShort"
  | playerTeam => "PTeam"

def named? (name : String) : Option MessageKind :=
  all.find? fun kind => kind.name == name

def schema : MessageKind → Schema
  | currentWeapon =>
    { fields := [.switchFlag, .weaponNumber, .clip]
      atEnd := some .weaponSwitch }
  | objectiveScore => { fields := [.scorePlayer, .scoreValue] }
  | roundState => { fields := [.roundState] }
  | health => { atEnd := some .damage }
  | resetHud => { atEnd := some .lifeReset }
  | teamScore => { fields := [.teamIndex, .teamScore] }
  | ammo => { fields := [.ammoSlot, .ammoAmount] }
  | ammoShort => { fields := [.ammoSlot, .ammoAmount] }
  | setFov => { fields := [.fieldOfView], atEnd := some .scopeCheck }
  | object => { fields := [.objectName], atEnd := some .objectToggle }
  | playerStatus => { fields := [.statusPlayer] }
  | scoreShort => {}
  | playerTeam => {}

end MessageKind

inductive FieldValue where
  | int (value : Int32)
  | float (value : Float32)
  | text (value : String)

namespace FieldValue

/-- The value as an integer: a float is cut toward zero and held inside the
range, a text has none. -/
def asInt : FieldValue → Option Int32
  | int value => some value
  | float value => some value.toInt32
  | text _ => none

end FieldValue

end Fragboard.Message
