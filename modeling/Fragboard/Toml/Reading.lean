import Fragboard.Saturation
import Fragboard.Toml.Document

/-!
# Reading settings out of TOML values

A reader takes a value of one type.  A record is read field by field: a field
that is absent keeps its default and a key that names no field is ignored.  A
record may also be written as an array of its fields in order.
-/

namespace Fragboard.Toml

abbrev Reader (α : Type) := Value → Except Fault α

abbrev Record := String → Option Value

namespace Reader

def int32 : Reader Int32
  | .integer value =>
    if lowest ≤ value ∧ value ≤ highest then .ok (Int32.ofInt value)
    else .error .unsuitable
  | _ => .error .unsuitable

def natural : Reader Nat
  | .integer value =>
    if 0 ≤ value then .ok value.toNat else .error .unsuitable
  | _ => .error .unsuitable

def boolean : Reader Bool
  | .boolean value => .ok value
  | _ => .error .unsuitable

/-- A single-precision number; an integer will do. -/
def float32 : Reader Float32
  | .float value => .ok value.toFloat32
  | .integer value => .ok (Float32.ofInt value)
  | _ => .error .unsuitable

def string : Reader String
  | .string text => .ok text
  | _ => .error .unsuitable

/-- A record with the given field names.  A moment counts as a record in which
no field is present. -/
def record (names : List String) : Reader Record
  | .table _ fields => .ok fun name => fields.lookup name
  | .array items => .ok fun name => (names.zip items).lookup name
  | .series tables =>
    .ok fun name => (names.zip (tables.map (Value.table .header))).lookup name
  | .moment => .ok fun _ => none
  | _ => .error .unsuitable

/-- A table whose keys are free and whose values are all of one type. -/
def table {α : Type} (read : Reader α) : Reader (List (String × α))
  | .table _ fields =>
    fields.mapM fun field => do
      let value ← read field.2
      .ok (field.1, value)
  | _ => .error .unsuitable

/-- The value has no parts. -/
def isEmptyGroup : Value → Bool
  | .array items => items.isEmpty
  | .table _ fields => fields.isEmpty
  | .series tables => tables.isEmpty
  | _ => false

/-- One of several words, written as a string or as the only key of a table
whose value has no parts. -/
def word {α : Type} (meaning : String → Option α) : Reader α
  | .string text => (meaning text).elim (.error .unsuitable) .ok
  | .table _ [(text, value)] =>
    if isEmptyGroup value then (meaning text).elim (.error .unsuitable) .ok
    else .error .unsuitable
  | _ => .error .unsuitable

end Reader

namespace Record

variable {α : Type}

/-- A field, or its default where it is absent. -/
def field (record : Record) (name : String) (read : Reader α) (absent : α) :
    Except Fault α :=
  match record name with
  | none => .ok absent
  | some value => read value

def optionalField (record : Record) (name : String) (read : Reader α) :
    Except Fault (Option α) :=
  match record name with
  | none => .ok none
  | some value => some <$> read value

end Record

end Fragboard.Toml
