/-!
# Faults of a settings file

Why a TOML document was not accepted.
-/

namespace Fragboard.Toml

inductive Fault where
  /-- The text breaks the grammar. -/
  | malformed
  /-- A key or a table is defined twice, or extended where that is closed. -/
  | redefined (key : String)
  /-- A value has not the type or the range that its reader asks for. -/
  | unsuitable
deriving DecidableEq

namespace Fault

def message : Fault → String
  | malformed => "malformed document"
  | redefined key => "duplicate key: " ++ key
  | unsuitable => "unsuitable value"

end Fault

end Fragboard.Toml
