import Utos.Coroutine.Interference
import Utos.Execution.Models
import Utos.Execution.Exchange
import Utos.Grid.State
import Utos.Grid.CircuitBreaker
import Utos.Grid.Planner
import Utos.Grid.Calculator
import Utos.ProfitLock.Engine
import Utos.Grid.Trading
import Utos.Grid.Disarm
import Utos.Grid.BreakerStop
import Utos.Grid.Resume
import Utos.Coroutine.Pool
import Utos.Grid.Holdings
import Utos.Grid.Room
import Utos.Grid.Oversell
import Utos.Grid.Overlap
import Utos.Execution.Placement
import Utos.Execution.Cancellation
import Utos.Execution.OrderLife
import Utos.Execution.Idempotency
import Utos.Execution.Registry
import Utos.Execution.Resubmission
import Utos.Process.Lifecycle
import Utos.Process.OneBot
import Utos.Process.Conformance
import Utos.Process.BlindOrders
import Utos.Process.AllOrNothing
import Utos.Grid.Cancelling
import Utos.Process.FlatOrders
import Utos.ProfitLock.OneLock
import Utos.Process.Agreement
import Utos.Process.Mutex
import Utos.ProfitLock.Short
import Utos.Streams.Replay
import Utos.Streams.Connector
import Utos.Streams.Deduplication
import Utos.ProfitLock.FillRace
import Utos.Grid.Activation
import Utos.Streams.OneConnection
import Utos.Grid.BreakerRun
import Utos.Grid.TrailingBuy
import Utos.Recovery.PositionsKept
import Utos.Recovery.QueueKept
import Utos.Events.Delivery
import Utos.Repositories.ResumeOverrides
import Utos.Services.ChargedOnce
import Utos.Risk.PerUser
import Utos.Risk.ClosedByFills
import Utos.Risk.CompletePnl
import Utos.Risk.PositionSize
import Utos.Risk.Aggregator
import Utos.Recovery.OrderNames
import Utos.MarketData.PriceFeed
import Utos.Exchanges.Refusal
import Utos.Grid.Persistence
import Utos.Grid.PlanStable
import Utos.Grid.WidenedStep
import Utos.Grid.ClosedGate
import Utos.Grid.ForceAtomic
import Utos.ProfitLock.Persistence
import Utos.Exchanges.OrderParams
import Utos.Core.Join
import Utos.Core.JsonText
import Utos.Core.Quote
import Utos.Exchanges.Coverage
import Utos.Process.Arming
import Utos.Recovery.CashFlow
import Utos.Recovery.Coordinator
import Utos.Recovery.SecondPass
import Utos.Recovery.LeftOpen
import Utos.Core.Context
import Utos.Core.RestoredMemory
import Utos.Grid.Ladder
import Utos.Grid.EvenGrid
import Utos.Grid.LadderArming
import Utos.Execution.Resync
import Utos.Grid.Frames
import Utos.Grid.RealProfit
import Utos.Services.DropThreshold
import Utos.Exchanges.Candles
import Utos.TA.Ema
import Utos.TA.Direction
import Utos.Services.Allocation
import Utos.Services.AtrCalculator
import Utos.Grid.DayAnchor
import Utos.Streams.FailedCall
import Utos.MarketData.Symbols
import Utos.MarketData.CandleHistory
import Utos.Exchanges.RateLimit
import Utos.Exchanges.TokenBound
import Utos.Exchanges.RestCalls
import Utos.Exchanges.DefaultBucket
import Utos.Scheduler.RetryWorker
import Utos.Notification.Queue
import Utos.Core.Decline
import Utos.Risk.Metrics
import Utos.Exchanges.OpenOrders
import Utos.Core.SlidingWindow
import Utos.Core.Middleware
import Utos.Core.WindowLimit
import Utos.Core.Security
import Utos.Core.TokenLife
import Utos.Services.StrategyModeStore
import Utos.Services.CacheFills
import Utos.Services.CommittedSeen
import Utos.Coroutine.Flight
import Utos.Scheduler.JobScheduler
import Utos.Scheduler.HeartbeatMonitor
import Utos.Scheduler.EventBus
import Utos.Events.RequestResponse
import Utos.Coroutine.Gate
import Utos.Services.CircuitBreakerScreener
import Utos.Services.ThresholdsServed
import Utos.Core.Backup
import Utos.Api.Auth
import Utos.Process.Isolation
import Utos.Scheduler.DeadLetters
import Utos.Api.Database
import Utos.Api.AddOns
import Utos.Api.ExchangeAccounts
import Utos.Api.SingleAccounts
