import Fragboard.Cells

/-!
# Binary layouts

A `Layout` says how values of a type are written as bytes and read back from
the front of a byte string.  `Faithful` is the law of a good layout: reading
undoes writing, and whatever was read is exactly what writing would have
produced.
-/

namespace Fragboard.Storage

abbrev Bytes := List UInt8

/-- How values of a type are laid out in bytes. -/
structure Layout (α : Type) where
  write : α → Bytes
  read : Bytes → Option (α × Bytes)

namespace Layout

variable {α β : Type}

/-- Reading inverts writing, and reads nothing that writing does not produce. -/
structure Faithful (layout : Layout α) : Prop where
  read_write : ∀ value rest,
    layout.read (layout.write value ++ rest) = some (value, rest)
  eq_write_of_read : ∀ {bytes value rest},
    layout.read bytes = some (value, rest) → bytes = layout.write value ++ rest

def byte : Layout UInt8 where
  write value := [value]
  read
    | value :: rest => some (value, rest)
    | [] => none

/-- A 32-bit word, lowest byte first. -/
def word : Layout UInt32 where
  write value :=
    [UInt8.ofNat value.toNat, UInt8.ofNat (value.toNat / 256),
      UInt8.ofNat (value.toNat / 65536), UInt8.ofNat (value.toNat / 16777216)]
  read
    | first :: second :: third :: fourth :: rest =>
      some (UInt32.ofNat (first.toNat + 256 * second.toNat +
        65536 * third.toNat + 16777216 * fourth.toNat), rest)
    | _ => none

def pair (first : Layout α) (second : Layout β) : Layout (α × β) where
  write value := first.write value.1 ++ second.write value.2
  read bytes := do
    let (left, bytes) ← first.read bytes
    let (right, bytes) ← second.read bytes
    some ((left, right), bytes)

/-- The layout of a type that has the same values as another. -/
def convert (layout : Layout α) (into : α → β) (outOf : β → α) :
    Layout β where
  write value := layout.write (outOf value)
  read bytes := do
    let (value, bytes) ← layout.read bytes
    some (into value, bytes)

def readMany (layout : Layout α) : Nat → Bytes → Option (List α × Bytes)
  | 0, bytes => some ([], bytes)
  | count + 1, bytes => do
    let (value, bytes) ← layout.read bytes
    let (values, bytes) ← layout.readMany count bytes
    some (value :: values, bytes)

def writeMany (layout : Layout α) (values : List α) : Bytes :=
  values.flatMap layout.write

/-- A fixed number of values, in order of their index. -/
def cells (size : Nat) (layout : Layout α) : Layout (Cells size α) where
  write table := layout.writeMany table.toList
  read bytes := do
    let (values, bytes) ← layout.readMany size bytes
    if exact : values.length = size then
      some ({ rows := ⟨values.toArray, by simpa using exact⟩ }, bytes)
    else
      none

end Layout

end Fragboard.Storage
