import Fragboard.Decimal
import Fragboard.Points.Document
import Fragboard.Rank.Persistence

/-!
# Printing a leaderboard

The text that the command line prints for a rank file: a summary, the first
rows in columns, and where the leader's hits landed.
-/

namespace Fragboard.Rank

open Storage (Bytes Fault FileTree FilePath)

namespace Report

def padLeft (width : Nat) (text : String) : String :=
  String.ofList (List.replicate (width - text.length) ' ') ++ text

def padRight (width : Nat) (text : String) : String :=
  text ++ String.ofList (List.replicate (width - text.length) ' ')

/-- The columns of the table: the name stands to the left, all else to the
right. -/
def columns (position name score kills deaths headshots teamkills
    damage : String) : String :=
  " ".intercalate [
    padLeft 5 position ++ " ", padRight 32 name, padLeft 6 score,
    padLeft 6 kills, padLeft 6 deaths, padLeft 5 headshots,
    padLeft 4 teamkills, padLeft 7 damage]

def banner : List String := [
  "╔══════════════════════════════════════════════════════════════════╗",
  "║         SKIRMISH RANK DUMP                                       ║",
  "╚══════════════════════════════════════════════════════════════════╝",
  ""]

def usage : List String := [
  "Usage: rank_dump <rank_file.dat>",
  "",
  "Options:",
  "  --top <n>           Show only the first n entries (default 25)",
  "  --points <file>     Score with this point table"]

def closingRule : String :=
  "└────────────────────────────────────────────────────────────────┘"

/-- A counter summed over all rows. -/
def sum (board : Board) (counter : Counter) : Int :=
  board.rows.foldl (fun total row => total + (row.stats.get counter).toInt) 0

/-- Hits in a hundred shots, with one place. -/
def accuracy (hits shots : Int) : String :=
  Decimal.fixed 1 (Float.ofInt hits * 100 / Float.ofInt shots)

def summary (board : Board) : List String :=
  let shots := sum board .shots
  let hits := sum board .hits
  let ratio :=
    if 0 < shots then ["│ Accuracy:           " ++ accuracy hits shots ++ "%"]
    else []
  ["",
    "┌─ SUMMARY ──────────────────────────────────────────────────────┐",
    "│ Entries:            " ++ toString board.rows.length,
    "│ Total shots:        " ++ toString shots,
    "│ Total hits:         " ++ toString hits] ++ ratio ++
    [closingRule, ""]

private def shown (row : Row) (counter : Counter) : String :=
  toString (row.stats.get counter).toInt

def tableRow (index : Nat) (row : Row) : String :=
  columns (toString (index + 1)) row.name (toString row.score.toInt)
    (shown row .kills) (shown row .deaths) (shown row .headshots)
    (shown row .teamkills) (shown row .damage)

def table (board : Board) (top : Nat) : List String :=
  columns "#" "name" "score" "kills" "deaths" "hs" "tk" "damage" ::
    (board.rows.take top).mapIdx tableRow

def regionLabels : List (String × BodyRegion) := [
  ("head", .head), ("chest", .chest), ("stomach", .stomach),
  ("left arm", .leftArm), ("right arm", .rightArm),
  ("left leg", .leftLeg), ("right leg", .rightLeg)]

def leader (row : Row) : List String :=
  ["",
    "┌─ LEADER HIT LOCATIONS ─────────────────────────────────────────┐"] ++
    regionLabels.map (fun entry =>
      "│ " ++ padRight 18 entry.1 ++ " " ++ shown row (.body entry.2)) ++
    [closingRule]

def body (board : Board) (top : Nat) : List String :=
  summary board ++ table board top ++ (board.rows.head?.elim [] leader)

end Report

structure ReportRequest where
  rankFile : FilePath
  top : Nat
  /-- The point table to score with. -/
  pointsFile : Option FilePath
deriving DecidableEq

namespace ReportRequest

/-- The argument after the first occurrence of an option. -/
def optionValue? (option : String) : List String → Option String
  | [] => none
  | argument :: rest =>
    if argument = option then rest.head? else optionValue? option rest

def largestCount : Nat := 0xFFFFFFFFFFFFFFFF

/-- A natural number in 64 bits, perhaps with a plus sign. -/
def count? (text : String) : Option Nat :=
  let digits :=
    match text.toList with
    | '+' :: rest => rest
    | characters => characters
  if digits.isEmpty ∨ !digits.all Char.isDigit then none
  else
    let value := Decimal.ofDigits 10 (digits.filterMap Decimal.digit?)
    if value ≤ largestCount then some value else none

def defaultTop : Nat := 25

/-- Reads the arguments of the command line; without any there is no request. -/
def ofArguments? : List String → Option ReportRequest
  | [] => none
  | first :: rest =>
    let arguments := first :: rest
    some
      { rankFile := { text := first }
        top := ((optionValue? "--top" arguments).bind count?).getD defaultTop
        pointsFile := (optionValue? "--points" arguments).map FilePath.mk }

/-- The report, given how files are read. -/
def lines (request : ReportRequest) (read : FilePath → Except Fault Bytes) :
    List String :=
  let points :=
    request.pointsFile.elim PointTable.blank fun path =>
      PointTable.orBlank (PointTable.ofContent path (read path))
  let (result, board) :=
    (Board.empty largestCount points).loadContent request.rankFile
      (read request.rankFile)
  let opening := "Loading rank: " ++ request.rankFile.text
  match result with
  | .error failure =>
    [opening, "Error: Could not load rank file: " ++ failure.message]
  | .ok _ => opening :: Report.body board request.top

end ReportRequest

def reportLines (arguments : List String) (read : FilePath → Except Fault Bytes) :
    List String :=
  match ReportRequest.ofArguments? arguments with
  | none => Report.banner ++ Report.usage
  | some request => Report.banner ++ request.lines read

end Fragboard.Rank
