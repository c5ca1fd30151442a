import Fragboard.Points
import Fragboard.Rank.Cursor

/-!
# The leaderboard

A `Board` lists rows by falling score.  Rows of equal score keep their order, a
row moves only when its own counters change, and the lowest rows are dropped
when the board outgrows its capacity.

A fresh row stands at the end with an empty block until its first update, so
for that time a full board holds one row more than its capacity.
-/

namespace Fragboard.Rank

structure Board where
  rows : List Row
  /-- How many rows are kept after an update. -/
  capacity : Nat
  points : PointTable
  /-- The identity of the next row; identities wrap around. -/
  nextId : UInt32

namespace Board

def empty (capacity : Nat) (points : PointTable) : Board :=
  { rows := [], capacity := capacity, points := points, nextId := 0 }

/-- Drops the lowest rows until the rest fits the capacity. -/
def evict (board : Board) : Board :=
  { board with rows := board.rows.take board.capacity }

def find? (board : Board) (name : String) (unique : Option String) :
    Option RankId :=
  (board.rows.find? (·.matchesKey name unique)).map Row.id

def get? (board : Board) (id : RankId) : Option Row :=
  board.rows.find? (·.id == id)

/-- The position of a row, counted from one. -/
def positionOf? (board : Board) (id : RankId) : Option Nat :=
  (board.rows.findIdx? (·.id == id)).map (· + 1)

/-- The row at a position counted from one. -/
def rowAt? (board : Board) (position : Nat) : Option Row :=
  if position = 0 then none else board.rows[position - 1]?

/-- Appends a row, scored by the board's table, under the next identity. -/
def append (board : Board) (name unique : String) (stats : StatBlock) : Board :=
  let row : Row :=
    { id := { number := board.nextId }
      name := name
      unique := unique
      stats := stats
      score := board.points.score stats }
  { board with rows := board.rows ++ [row], nextId := board.nextId + 1 }

/-- Finds the row with a key, or appends an empty one.  Rows beyond the capacity
are dropped before the new one is added. -/
def findOrCreate (board : Board) (name : String) (unique : Option String) :
    RankId × Board :=
  match board.find? name unique with
  | some id => (id, board)
  | none =>
    ({ number := board.nextId },
      board.evict.append name (unique.getD "") StatBlock.zero)

/-- Gives a row another name and leaves it where it stands. -/
def rename? (board : Board) (id : RankId) (name : String) : Option Board :=
  (Cursor.seek? id board.rows).map fun cursor =>
    { board with rows := (cursor.mapRow ({ · with name := name })).rows }

/-- Merges counters into a row and moves it to where its new score belongs.  The
position is that of the row afterwards, none when the row is unknown or was
itself dropped. -/
def update (board : Board) (id : RankId) (delta : StatBlock) :
    Option Nat × Board :=
  match Cursor.seek? id board.rows with
  | none => (none, board)
  | some cursor =>
    let settled := (cursor.mapRow (·.gain board.points delta)).settle
    let position := settled.above.length + 1
    let next := { board with rows := settled.rows }.evict
    (if position ≤ next.rows.length then some position else none, next)

def clear (board : Board) : Board :=
  { board with rows := [] }

end Board

end Fragboard.Rank
