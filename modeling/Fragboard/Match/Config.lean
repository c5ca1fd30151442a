import Fragboard.Storage.FileTree
import Fragboard.Toml.Reading

/-!
# Match settings

The settings of a match, their defaults, and how they are read from a file.
-/

namespace Fragboard.Match

open Storage (Bytes FileTree FilePath)

/-- How leaderboard rows are told apart. -/
inductive RankKey where
  | name
  /-- By name and the unique identity of the player. -/
  | unique
deriving DecidableEq

structure Config where
  rankCapacity : Nat := 3500
  /-- Empty the leaderboard at the end of a match, before saving. -/
  resetRankOnTeardown : Bool := false
  rankBy : RankKey := .name
  /-- Bots, too, are entered on the leaderboard. -/
  rankBots : Bool := true
  /-- Weapons, damage and scores are not counted. -/
  paused : Bool := false
  /-- Seconds until a scheduled clear applies. -/
  resetDelay : Float32 := 0.25
  /-- Seconds until a change of score is announced. -/
  scoreNotifyDelay : Float32 := 0.25
  /-- Seconds for which a rocket can be attributed. -/
  rocketWindow : Float32 := 2
  rankFile : FilePath := { text := "data/skirmish_rank.dat" }
  pointsFile : FilePath := { text := "data/skirmish_points.toml" }
deriving DecidableEq

inductive ConfigError where
  | unreadable (path : FilePath) (fault : Storage.Fault)
  | notText (path : FilePath)
  | invalid (fault : Toml.Fault)
deriving DecidableEq

namespace ConfigError

def message : ConfigError → String
  | unreadable path fault =>
    "invalid configuration: " ++ path.text ++ ": " ++ fault.message
  | notText path =>
    "invalid configuration: " ++ path.text ++
      ": stream did not contain valid UTF-8"
  | invalid fault => "invalid configuration: " ++ fault.message

end ConfigError

def RankKey.named? : String → Option RankKey
  | "name" => some .name
  | "unique" => some .unique
  | _ => none

namespace Config

/-- The settings amount to the defaults: numbers are compared as numbers and
paths by their components. -/
def isDefault (config : Config) : Bool :=
  let standard : Config := {}
  config.rankCapacity == standard.rankCapacity &&
    config.resetRankOnTeardown == standard.resetRankOnTeardown &&
    config.rankBy == standard.rankBy &&
    config.rankBots == standard.rankBots &&
    config.paused == standard.paused &&
    config.resetDelay.beq standard.resetDelay &&
    config.scoreNotifyDelay.beq standard.scoreNotifyDelay &&
    config.rocketWindow.beq standard.rocketWindow &&
    config.rankFile.equivalent standard.rankFile &&
    config.pointsFile.equivalent standard.pointsFile

/-- The names of the settings in a file, in order. -/
def fieldNames : List String :=
  ["rank_capacity", "reset_rank_on_teardown", "rank_by", "rank_bots", "paused",
    "reset_delay_secs", "score_notify_delay_secs", "rocket_track_secs",
    "rank_file", "points_file"]

private def path : Toml.Reader FilePath := fun value =>
  FilePath.mk <$> Toml.Reader.string value

def read : Toml.Reader Config := fun value => do
  let record ← Toml.Reader.record fieldNames value
  let standard : Config := {}
  .ok {
    rankCapacity :=
      ← record.field "rank_capacity" Toml.Reader.natural standard.rankCapacity
    resetRankOnTeardown :=
      ← record.field "reset_rank_on_teardown" Toml.Reader.boolean
        standard.resetRankOnTeardown
    rankBy :=
      ← record.field "rank_by" (Toml.Reader.word RankKey.named?) standard.rankBy
    rankBots :=
      ← record.field "rank_bots" Toml.Reader.boolean standard.rankBots
    paused := ← record.field "paused" Toml.Reader.boolean standard.paused
    resetDelay :=
      ← record.field "reset_delay_secs" Toml.Reader.float32 standard.resetDelay
    scoreNotifyDelay :=
      ← record.field "score_notify_delay_secs" Toml.Reader.float32
        standard.scoreNotifyDelay
    rocketWindow :=
      ← record.field "rocket_track_secs" Toml.Reader.float32
        standard.rocketWindow
    rankFile := ← record.field "rank_file" path standard.rankFile
    pointsFile := ← record.field "points_file" path standard.pointsFile
  }

def parse (text : String) : Except ConfigError Config :=
  (Toml.Document.parse text >>= read).mapError .invalid

def load (tree : FileTree) (path : FilePath) : Except ConfigError Config :=
  match tree.read path with
  | .error fault => .error (.unreadable path fault)
  | .ok bytes =>
    match String.fromUTF8? bytes.toByteArray with
    | some text => parse text
    | none => .error (.notText path)

end Config

end Fragboard.Match
