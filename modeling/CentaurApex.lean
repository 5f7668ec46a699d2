import CentaurApex.Theory.ExtNum
import CentaurApex.Theory.DecimalFloat
import CentaurApex.Theory.Doubles
import CentaurApex.Theory.Machine
import CentaurApex.Theory.Bounded
import CentaurApex.Theory.Book
import CentaurApex.Theory.Json
import CentaurApex.Theory.JsonText
import CentaurApex.Theory.Framing
import CentaurApex.Theory.PyText
import CentaurApex.Theory.JsonReader
import CentaurApex.Theory.JsonDumps
import CentaurApex.Theory.PyDict
import CentaurApex.Theory.PySlice
import CentaurApex.Theory.Runs
import CentaurApex.Theory.Replica
import CentaurApex.Theory.Dissemination
import CentaurApex.Theory.SharedObject
import CentaurApex.Theory.Base64
import CentaurApex.Theory.Regex
import CentaurApex.Theory.ArgParse
import CentaurApex.Theory.JsonSchema
import CentaurApex.Constitution.Invariants
import CentaurApex.Constitution.Approval
import CentaurApex.Constitution.StateMachine
import CentaurApex.Constitution.Drawdown
import CentaurApex.Constitution.History
import CentaurApex.Constitution.Exposure
import CentaurApex.Constitution.Config
import CentaurApex.Constitution.Ipc
import CentaurApex.Constitution.Serde
import CentaurApex.Constitution.Delivery
import CentaurApex.Constitution.Connection
import CentaurApex.Constitution.ResponseText
import CentaurApex.Constitution.Clients
import CentaurApex.Constitution.TmrVoter
import CentaurApex.Constitution.Replicas
import CentaurApex.Constitution.Relief
import CentaurApex.Gateway.Transport
import CentaurApex.Gateway.DataEvents
import CentaurApex.Doomsday.Daemon
import CentaurApex.Doomsday.Escalation
import CentaurApex.Doomsday.Liquidation
import CentaurApex.Doomsday.Heartbeats
import CentaurApex.Doomsday.Completion
import CentaurApex.Doomsday.Journal
import CentaurApex.Doomsday.Oracle
import CentaurApex.Doomsday.BlindOrders
import CentaurApex.Adapters.ProposalBridge
import CentaurApex.Adapters.OrderActions
import CentaurApex.Cortex.Engine
import CentaurApex.Cortex.ProposalApi
import CentaurApex.Cortex.RequestFrames
import CentaurApex.Cortex.ConstitutionClient
import CentaurApex.Cortex.Chunks
import CentaurApex.Cortex.LateAnswers
import CentaurApex.Cortex.TradingDaemon
import CentaurApex.Cortex.TradingLoop
import CentaurApex.Cortex.Positions
import CentaurApex.Cortex.MarketContext
import CentaurApex.Cortex.Candles
import CentaurApex.Cortex.LateTicks
import CentaurApex.Cortex.Swings
import CentaurApex.Cortex.Bands
import CentaurApex.Cortex.Coils
import CentaurApex.Cortex.SwingSpec
import CentaurApex.Cortex.Consistency
import CentaurApex.Cortex.Regimes
import CentaurApex.Cortex.Pullback
import CentaurApex.Cortex.Transitions
import CentaurApex.Cortex.Reflection
import CentaurApex.Cortex.Patterns
import CentaurApex.Cortex.Sweeps
import CentaurApex.Cortex.Divergences
import CentaurApex.Cortex.Streaks
import CentaurApex.Cortex.NextCandle
import CentaurApex.Cortex.NextCandleMl
import CentaurApex.Cortex.Scores
import CentaurApex.Cortex.TrueRanges
import CentaurApex.Cortex.StreakExtremes
import CentaurApex.Cortex.EventEngine
import CentaurApex.Mesh.PqcWrapper
import CentaurApex.Mesh.Signatures
import CentaurApex.Mesh.Consensus
import CentaurApex.Mesh.Network
import CentaurApex.Mesh.Agreement
import CentaurApex.Mesh.Quorum
import CentaurApex.Mesh.Commits
import CentaurApex.Mesh.Settling
import CentaurApex.Mesh.Facade
import CentaurApex.Mesh.Tally
import CentaurApex.Mesh.Interference
import CentaurApex.Evolution.CodeAgent
import CentaurApex.Evolution.RiskLines
import CentaurApex.Evolution.LogScan
import CentaurApex.Cortex.EventWatcher
import CentaurApex.Cortex.ContextEngine
import CentaurApex.Cortex.Standby
import CentaurApex.Theory.Files
import CentaurApex.Adapters.LiveFeed
import CentaurApex.Adapters.History
import CentaurApex.Adapters.Discovery
import CentaurApex.Evolution.Patches
import CentaurApex.Evolution.Staging
import CentaurApex.Evolution.ShadowGate
import CentaurApex.Simulation.SyntheticGen
import CentaurApex.Simulation.HoldRuns
import CentaurApex.Cortex.Sizing
import CentaurApex.Gateway.Propose
import CentaurApex.Mesh.Inbound
import CentaurApex.CentaurStart.Services
import CentaurApex.CentaurStart.Dependencies
import CentaurApex.CentaurStart.Ownership
import CentaurApex.CentaurStart.RestartCap
