import Fragboard.Cells

/-!
# Player slots

A match has thirty-two player slots, numbered from one.  A `Slot` always names
one of them, so per-player tables are read without a bound check.
-/

namespace Fragboard

abbrev slotCount : Nat := 32

structure Slot where
  index : Fin slotCount
deriving DecidableEq

namespace Slot

/-- The number that the engine uses for the slot, counted from one. -/
def number (slot : Slot) : Nat :=
  slot.index.val + 1

/-- The slot with a number, none outside `1..slotCount`. -/
def ofNumber? (number : Int32) : Option Slot :=
  let position := number.toInt - 1
  if inside : 0 ≤ position ∧ position.toNat < slotCount then
    some { index := ⟨position.toNat, inside.2⟩ }
  else
    none

def all : List Slot :=
  (List.finRange slotCount).map Slot.mk

def label (slot : Slot) : String :=
  "#" ++ toString slot.number

theorem mem_all (slot : Slot) : slot ∈ all := by
  simp [all, List.mem_map]

end Slot

/-- One value for every player slot. -/
abbrev Roster (α : Type) := Cells slotCount α

end Fragboard
