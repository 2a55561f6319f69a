import LivePoly.Rules.Turn
import LivePoly.Rules.Estate
import LivePoly.Rules.Bidding
import LivePoly.Rules.Trade
import LivePoly.Rules.Settlement
import LivePoly.Rules.Action
import LivePoly.Rules.Players
import LivePoly.Rules.Tiles
import LivePoly.Rules.Decks
import LivePoly.Rules.Phases
import LivePoly.Rules.Reachable
import LivePoly.Rules.Progress
import LivePoly.Rules.Guarantees
import LivePoly.Rules.Mirror
import LivePoly.Rules.Mirrored
import LivePoly.Rules.Ledger
import LivePoly.Rules.Frame
import LivePoly.Rules.Terminal
import LivePoly.Rules.Offers
import LivePoly.Lib.Ring
import LivePoly.Rules.AuctionProtocol
import LivePoly.Rules.Jail
import LivePoly.Lib.Rotation
import LivePoly.Rules.Rotation
import LivePoly.Lib.Process
import LivePoly.Service.State
import LivePoly.Service.Commands
import LivePoly.Lib.CompareAndSet
import LivePoly.Rules.Workers
import LivePoly.Rules.Serial
import LivePoly.Rules.Recovery
import LivePoly.Service.Jobs
import LivePoly.Rules.Stale
import LivePoly.Lib.JobQueue
import LivePoly.Service.Outbox
import LivePoly.Rules.Outbox
import LivePoly.Lib.Sessions
import LivePoly.Service.Database
import LivePoly.Service.Stats
import LivePoly.Rules.Stats
import LivePoly.Service.Rooms
import LivePoly.Rules.Rooms
import LivePoly.Service.Bots
import LivePoly.Rules.GameQueue
import LivePoly.Rules.Live
import LivePoly.Rules.MissedTurns
import LivePoly.Rules.CardLanding
import LivePoly.Rules.Charges
import LivePoly.Rules.NetWorth
import LivePoly.Rules.Exchange
import LivePoly.Rules.AutoDebt
import LivePoly.Rules.Publishers
import LivePoly.Service.Auth
import LivePoly.Rules.Auth
import LivePoly.Rules.PageCache
import LivePoly.Lib.SlidingLog
import LivePoly.Lib.TokenBucket
import LivePoly.Rules.RateLimit
import LivePoly.Rules.Avatars
import LivePoly.Rules.Retired
import LivePoly.Rules.Solvency
import LivePoly.Rules.BuildingSets
import LivePoly.Service.ExactStats
import LivePoly.Rules.Averages
import LivePoly.Rules.Ratings
import LivePoly.Lib.Calendar
import LivePoly.Rules.Buckets
import LivePoly.Lib.Keyset
import LivePoly.Service.GameEvents
import LivePoly.Rules.EventRecovery
import LivePoly.Service.Friends
import LivePoly.Rules.Friends
import LivePoly.Rules.BotTrades
import LivePoly.Rules.BuildSell
import LivePoly.Rules.BotChoices
import LivePoly.Rules.BotTurn
import LivePoly.Rules.Deadlines
import LivePoly.Lib.Ranking
import LivePoly.Service.Results
import LivePoly.Rules.Finishes
import LivePoly.Rules.Results
import LivePoly.Lib.Upsert
import LivePoly.Rules.Finalization
import LivePoly.Rules.Automation
import LivePoly.Rules.Timeouts
import LivePoly.Rules.BotDecisions
import LivePoly.Rules.EventOrder
import LivePoly.Rules.SnapshotOrder
import LivePoly.Rules.FailedStart
import LivePoly.Lib.Tracked
import LivePoly.Rules.Standing
import LivePoly.Rules.Leaving
import LivePoly.Rules.HostRequests
import LivePoly.Rules.HostLeaves
import LivePoly.Rules.HostStarts
import LivePoly.Rules.LeaveOrStart
