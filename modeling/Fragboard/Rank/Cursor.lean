import Fragboard.Points

/-!
# Rows and cursors

A `Row` is one line of the leaderboard.  A `Cursor` is a list of rows with one
of them in focus; `Cursor.settle` moves that row past its neighbours until none
of them should stand on its other side.
-/

namespace Fragboard.Rank

/-- The identity of a row, kept while the row stays on the board. -/
structure RankId where
  number : UInt32
deriving DecidableEq

structure Row where
  id : RankId
  name : String
  /-- Tells players of one name apart; empty when it is not used. -/
  unique : String
  stats : StatBlock
  score : Int32
deriving DecidableEq

def foldCase (name : String) : List Char :=
  name.toList.map Char.toLower

namespace Row

/-- The name agrees up to the case of ASCII letters, and the disambiguator,
where one is asked for, agrees exactly. -/
def matchesKey (row : Row) (name : String) (unique : Option String) : Bool :=
  foldCase row.name == foldCase name && unique.all (row.unique == ·)

/-- Merges counters and scores the row anew. -/
def gain (row : Row) (points : PointTable) (delta : StatBlock) : Row :=
  let stats := row.stats.merge delta
  { row with stats := stats, score := points.score stats }

end Row

structure Cursor where
  /-- The rows above the focus, nearest first. -/
  above : List Row
  row : Row
  /-- The rows below the focus, nearest first. -/
  below : List Row

namespace Cursor

/-- The list that the cursor walks. -/
def rows (cursor : Cursor) : List Row :=
  cursor.above.reverse ++ cursor.row :: cursor.below

/-- Looks for an identity among the rows below, passing others on the way. -/
def seekBelow? (id : RankId) : List Row → List Row → Option Cursor
  | _, [] => none
  | above, row :: below =>
    if row.id = id then some { above := above, row := row, below := below }
    else seekBelow? id (row :: above) below

def seek? (id : RankId) (rows : List Row) : Option Cursor :=
  seekBelow? id [] rows

def mapRow (cursor : Cursor) (change : Row → Row) : Cursor :=
  { cursor with row := change cursor.row }

/-- Moves a row up past neighbours of strictly lower score. -/
def climb (row : Row) : List Row → List Row → Cursor
  | [], below => { above := [], row := row, below := below }
  | neighbour :: above, below =>
    if neighbour.score < row.score then climb row above (neighbour :: below)
    else { above := neighbour :: above, row := row, below := below }

/-- Moves a row down past neighbours of strictly higher score. -/
def sink (row : Row) : List Row → List Row → Cursor
  | above, [] => { above := above, row := row, below := [] }
  | above, neighbour :: below =>
    if row.score < neighbour.score then sink row (neighbour :: above) below
    else { above := above, row := row, below := neighbour :: below }

/-- Moves the row in focus up as far as it goes, then down. -/
def settle (cursor : Cursor) : Cursor :=
  let raised := climb cursor.row cursor.above cursor.below
  sink raised.row raised.above raised.below

end Cursor

end Fragboard.Rank
