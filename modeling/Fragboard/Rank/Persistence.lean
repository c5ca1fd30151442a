import Fragboard.Rank.Board
import Fragboard.Rank.Image

/-!
# Saving and loading a leaderboard

`Board.encode` writes the rows in order with their positions.  `Board.loadBytes`
replaces all rows by those of an image: it takes them in the order of their
stored positions and sorts them by the score that the board's own table gives
them.  Both sorts are stable.  A file that is rejected leaves the board empty.
-/

namespace Fragboard.Rank

open Storage (Bytes FileTree FilePath)

/-- The stored form of a row at a position counted from zero. -/
def Row.toRecord (row : Row) (index : Nat) : RankRecord :=
  { name := NameField.pack row.name
    unique := NameField.pack row.unique
    stats := row.stats
    position := UInt32.ofNat (index + 1) }

namespace Board

def encode (board : Board) : Bytes :=
  Image.encode (board.rows.mapIdx fun index row => row.toRecord index)

def appendRecord (board : Board) (record : RankRecord) : Board :=
  board.append record.name.unpack record.unique.unpack record.stats

/-- The order of the board: falling score. -/
def outranks (first second : Row) : Bool :=
  second.score ≤ first.score

def sortByScore (board : Board) : Board :=
  { board with rows := board.rows.mergeSort outranks }

def ofRecords (board : Board) (records : List RankRecord) : Board :=
  let ordered := records.mergeSort fun first second =>
    first.position ≤ second.position
  (ordered.foldl appendRecord board.clear).sortByScore.evict

/-- Replaces the rows by those of an image, and counts them. -/
def loadBytes (board : Board) (bytes : Bytes) : Except RankError Nat × Board :=
  match Image.decode bytes with
  | .error failure => (.error failure, board.clear)
  | .ok records =>
    let loaded := board.ofRecords records
    (.ok loaded.rows.length, loaded)

/-- Replaces the rows by those of a file, given what reading it returned. -/
def loadContent (board : Board) (path : FilePath)
    (content : Except Storage.Fault Bytes) : Except RankError Nat × Board :=
  match content with
  | .error fault => (.error (.ofFault path fault), board.clear)
  | .ok bytes => board.loadBytes bytes

def load (board : Board) (tree : FileTree) (path : FilePath) :
    Except RankError Nat × Board :=
  board.loadContent path (tree.read path)

end Board

/-- A failed write is reported with the path of the step that failed. -/
def RankError.ofWrite (failure : Storage.FileTree.WriteFailure) : RankError :=
  .ofFault failure.path failure.fault

/-- Replaces a file as a whole. -/
def writeFile (tree : FileTree) (path : FilePath) (content : Bytes) :
    FileTree × Except RankError Unit :=
  let (written, result) := tree.replaceFile path content
  (written, result.mapError .ofWrite)

def Board.save (board : Board) (tree : FileTree) (path : FilePath) :
    FileTree × Except RankError Unit :=
  writeFile tree path board.encode

end Fragboard.Rank
