/-!
# Entity handles

The engine reuses the rows of its entity table.  A handle therefore carries the
generation of its row, and a handle to an earlier occupant is never equal to
the handle of the present one.
-/

namespace Fragboard

/-- A row of the engine's entity table together with its generation. -/
structure EntityHandle where
  index : UInt32
  generation : UInt32
deriving DecidableEq

namespace EntityHandle

def null : EntityHandle :=
  { index := 0xFFFFFFFF, generation := 0xFFFFFFFF }

instance : Inhabited EntityHandle :=
  ⟨null⟩

def isNull (handle : EntityHandle) : Bool :=
  handle == null

/-- The next occupant of the same row; generations wrap around. -/
def nextGeneration (handle : EntityHandle) : EntityHandle :=
  { handle with generation := handle.generation + 1 }

end EntityHandle

structure Position where
  x : Float32
  y : Float32
  z : Float32
deriving DecidableEq

namespace Position

def origin : Position :=
  { x := 0, y := 0, z := 0 }

end Position

end Fragboard
