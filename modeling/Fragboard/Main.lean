import Fragboard.Rank.Report

/-!
# Command line

Prints a rank file as a leaderboard.
-/

namespace Fragboard

open Storage (Bytes Fault FilePath)

/-- The fault that a failed read of a file amounts to. -/
def faultOf : IO.Error → Fault
  | .noFileOrDirectory .. => .noEntry
  | failure => .other (toString failure)

def readFile (path : FilePath) : IO (Except Fault Bytes) := do
  try
    let content ← IO.FS.readBinFile path.text
    return .ok content.toList
  catch failure =>
    return .error (faultOf failure)

def readRequested (request : Rank.ReportRequest) :
    IO (FilePath → Except Fault Bytes) := do
  let rank ← readFile request.rankFile
  match request.pointsFile with
  | none => return fun _ => rank
  | some pointsFile =>
    let points ← readFile pointsFile
    return fun path => if path = request.rankFile then rank else points

end Fragboard

def main (arguments : List String) : IO UInt32 := do
  let read ←
    match Fragboard.Rank.ReportRequest.ofArguments? arguments with
    | some request => Fragboard.readRequested request
    | none => pure fun _ => .error .noEntry
  for line in Fragboard.Rank.reportLines arguments read do
    IO.println line
  return 0
