import Fragboard.Cells
import Fragboard.Message.Kind

/-!
# Message registry

The engine gives each message a number when it starts.  A `Registry` records
which kind has which number, in one table by numbers and in another by kinds.
-/

namespace Fragboard.Message

inductive BindError where
  | unknownName (name : String)
  | idOutOfRange (id : Int32)
  /-- The kind already has a number. -/
  | kindBound (kind : MessageKind) (id : Int32)
  /-- The number already belongs to a kind. -/
  | idTaken (id : Int32) (kind : MessageKind)
deriving DecidableEq

def BindError.message : BindError → String
  | unknownName name => "unknown message name: " ++ name
  | idOutOfRange id => "message id " ++ toString id.toInt ++ " out of range"
  | kindBound kind id =>
    "message " ++ kind.name ++ " already bound to id " ++ toString id.toInt
  | idTaken id kind =>
    "message id " ++ toString id.toInt ++ " already used by " ++ kind.name

/-- The number of message numbers that the engine has. -/
def messageIdCount : Nat := 256

/-- A number that the engine gives to messages. -/
def IsMessageId (id : Int32) : Prop :=
  0 ≤ id.toInt ∧ id.toInt < messageIdCount

instance (id : Int32) : Decidable (IsMessageId id) :=
  inferInstanceAs (Decidable (_ ∧ _))

/-- Where a number stands in a table by numbers. -/
def messageIndex? (id : Int32) : Option (Fin messageIdCount) :=
  if inside : IsMessageId id then
    some ⟨id.toInt.toNat, (Int.toNat_lt inside.1).mpr inside.2⟩
  else
    none

/-- Which kinds have which numbers. -/
structure Registry where
  /-- The kind of each number. -/
  kinds : Cells messageIdCount (Option MessageKind)
  /-- The number of each kind. -/
  ids : Cells MessageKind.all.length (Option Int32)
deriving DecidableEq

namespace Registry

def empty : Registry :=
  { kinds := .fill none, ids := .fill none }

def idOf? (registry : Registry) (kind : MessageKind) : Option Int32 :=
  registry.ids.get kind.ordinal

def kindOf? (registry : Registry) (id : Int32) : Option MessageKind :=
  (messageIndex? id).bind registry.kinds.get

def unbound (registry : Registry) : List MessageKind :=
  MessageKind.all.filter fun kind => (registry.idOf? kind).isNone

/-- Gives the kind with a name a number.  Of several faults the first in this
order is reported: the name, the range of the number, the kind, the number. -/
def bind (registry : Registry) (name : String) (id : Int32) :
    Except BindError MessageKind × Registry :=
  match MessageKind.named? name with
  | none => (.error (.unknownName name), registry)
  | some kind =>
    match messageIndex? id with
    | none => (.error (.idOutOfRange id), registry)
    | some index =>
      match registry.ids.get kind.ordinal with
      | some previous => (.error (.kindBound kind previous), registry)
      | none =>
        match registry.kinds.get index with
        | some holder => (.error (.idTaken id holder), registry)
        | none =>
          (.ok kind,
            { kinds := registry.kinds.set index (some kind)
              ids := registry.ids.set kind.ordinal (some id) })

end Registry

end Fragboard.Message
