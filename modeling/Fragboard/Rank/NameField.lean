import Fragboard.Cells
import Fragboard.Text.Lossy

/-!
# Name fields

On disk a name has thirty-two bytes.  `NameField.pack` keeps as many whole
characters as fit and fills up with NUL bytes; `NameField.unpack` reads up to
the first NUL.
-/

namespace Fragboard.Rank

abbrev nameBytes : Nat := 32

structure NameField where
  bytes : Cells nameBytes UInt8
deriving DecidableEq

/-- The longest prefix whose UTF-8 form fits a number of bytes. -/
def fittingPrefix : Nat → List Char → List Char
  | _, [] => []
  | room, character :: rest =>
    if character.utf8Size ≤ room then
      character :: fittingPrefix (room - character.utf8Size) rest
    else
      []

namespace NameField

/-- Places bytes at the start of a field and NUL bytes after them. -/
def ofBytes (bytes : List UInt8) : NameField :=
  { bytes := Cells.tabulate fun index => bytes.getD index.val 0 }

def pack (text : String) : NameField :=
  ofBytes (Text.encode (fittingPrefix nameBytes text.toList))

def unpack (field : NameField) : String :=
  String.ofList (Text.decode (field.bytes.toList.takeWhile (· != 0)))

end NameField

end Fragboard.Rank
