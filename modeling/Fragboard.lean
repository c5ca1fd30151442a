import Fragboard.Main
import Fragboard.Match.ScriptedWorld
import Fragboard.Match.Session
import Fragboard.Proofs.Rank.BoardOrder
import Fragboard.Proofs.Rank.ImageExactness
import Fragboard.Proofs.Rank.BoardChanges
import Fragboard.Proofs.Rank.FreshIdentity
import Fragboard.Proofs.Match.PlayerTables
import Fragboard.Proofs.Match.SessionCalls
import Fragboard.Proofs.Match.ScoredVisits
import Fragboard.Proofs.Match.MatchLeaderboard
import Fragboard.Proofs.Rank.BoardTotals
import Fragboard.Proofs.Match.LifeLedger
import Fragboard.Proofs.Rank.StoredNames
import Fragboard.Proofs.Rank.SavedBoard
import Fragboard.Proofs.Rank.ReloadedKeys
import Fragboard.Proofs.Match.TallyCalls
import Fragboard.Proofs.Rank.BoundedBoard
import Fragboard.Proofs.Match.WeaponTotals
import Fragboard.Proofs.Match.VictimTotals
import Fragboard.Proofs.Match.DuelSides
import Fragboard.Proofs.Match.FlightLog
import Fragboard.Proofs.Match.ThrowerCredit
import Fragboard.Proofs.Match.SessionEvents
import Fragboard.Proofs.Match.SessionTally
import Fragboard.Proofs.Match.ScriptedMatch
import Fragboard.Proofs.Match.DeathCounts
import Fragboard.Proofs.Match.DamageNotices
import Fragboard.Proofs.Match.AlikeWorlds
import Fragboard.Proofs.Match.PausedDamage
import Fragboard.Proofs.Match.PausedCounters
import Fragboard.Proofs.Match.RepeatedDeaths
import Fragboard.Proofs.Match.KeyedRows
import Fragboard.Proofs.Match.RenamedRows
import Fragboard.Proofs.Match.BackgroundSaves
import Fragboard.Proofs.Message.DeliveredMeanings
import Fragboard.Proofs.SaturatingSums
import Fragboard.Proofs.Rank.ReusedIdentities
import Fragboard.Proofs.Rank.UpdateOrder
import Fragboard.Proofs.Match.RecordedBlocks
import Fragboard.Proofs.Match.RecordingOrder
import Fragboard.Proofs.Storage.ChecksumDetection
import Fragboard.Proofs.Storage.ChangedBytes
import Fragboard.Proofs.Rank.DamagedImage
import Fragboard.Proofs.Message.BoundNumbers
import Fragboard.Proofs.Rank.StableIdentities
import Fragboard.Proofs.Match.PlayerChanges
import Fragboard.Proofs.Match.ScoreAnnouncements
import Fragboard.Proofs.Match.MessagesInFlight
import Fragboard.Proofs.Match.ObjectNotices
import Fragboard.Proofs.Rank.PlacedRows
import Fragboard.Proofs.Match.ConsistentCounters
import Fragboard.Proofs.Match.ScopeNotices
import Fragboard.Proofs.Match.EntityLifetimes
import Fragboard.Proofs.Match.PairedDrops
import Fragboard.Proofs.Rank.CreatedRows
import Fragboard.Proofs.Rank.LoadedBoard
import Fragboard.Proofs.Match.ChargedDamage
import Fragboard.Proofs.Match.ClipDrops
import Fragboard.Proofs.Match.ObjectivePoints
import Fragboard.Proofs.Match.DueReports
import Fragboard.Proofs.Match.UnheardMessages
import Fragboard.Proofs.Storage.WrittenFiles
import Fragboard.Proofs.LivesApart
import Fragboard.Proofs.Rank.RisingRows
import Fragboard.Proofs.Match.ResolvedHandles
import Fragboard.Proofs.Toml.DistinctKeys
import Fragboard.Proofs.WeaponOverrides
import Fragboard.Proofs.Rank.CutNames
