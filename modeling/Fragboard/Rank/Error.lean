import Fragboard.Storage.FileTree
import Fragboard.Toml.Fault

/-!
# Failures of the leaderboard

What can go wrong when a rank file or a point table is read or written, and the
text that reports it.
-/

namespace Fragboard.Rank

open Storage (FilePath Fault)

inductive RankError where
  /-- The file system refused an operation on a path. -/
  | storage (path : FilePath) (fault : Fault)
  | notFound (path : FilePath)
  | badMagic
  | versionMismatch (found expected : UInt32)
  /-- The length of the file is not the one that its header implies. -/
  | truncated (expected actual : Nat)
  | checksumMismatch (stored computed : UInt32)
  /-- The file holds no point table. -/
  | invalidPoints (fault : Toml.Fault)
deriving DecidableEq

/-- Eight hexadecimal digits after `0x`. -/
def hexWord (word : UInt32) : String :=
  let digits := Nat.toDigits 16 word.toNat
  "0x" ++ String.ofList (List.replicate (8 - digits.length) '0' ++ digits)

namespace RankError

/-- The failure that a fault of the file system amounts to: a missing file is
kept apart from all others. -/
def ofFault (path : FilePath) : Fault → RankError
  | .noEntry => notFound path
  | fault => storage path fault

def message : RankError → String
  | storage path fault =>
    "rank file i/o error: " ++ path.text ++ ": " ++ fault.message
  | notFound path => "rank file not found: " ++ path.text
  | badMagic => "not a rank file (bad magic)"
  | versionMismatch found expected =>
    "rank file version mismatch: found " ++ toString found.toNat ++
      ", expected " ++ toString expected.toNat
  | truncated expected actual =>
    "rank file truncated: expected " ++ toString expected ++ " bytes, got " ++
      toString actual
  | checksumMismatch stored computed =>
    "rank file checksum mismatch: stored " ++ hexWord stored ++
      ", computed " ++ hexWord computed
  | invalidPoints fault => "invalid configuration: " ++ fault.message

end RankError

end Fragboard.Rank
