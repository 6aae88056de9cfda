import CkbDex.SettlementBuilder
import CkbDex.EventSpelling
import CkbDex.OrderFormat
import CkbDex.OrdersAndTrades
import CkbDex.ScriptIdentities
import CkbDex.ScanCursor
import CkbDex.ScanFailures
import CkbDex.EventAdmission
import CkbDex.OrderCreation
import CkbDex.Cancellation
import CkbDex.Quarantine
import CkbDex.SettlementTracking
import CkbDex.FaucetBudgets
import CkbDex.FaucetCooldowns
import CkbDex.ChannelCaps
import CkbDex.MarketPaging
import CkbDex.RateLimiter
import CkbDex.HealthHistory
import CkbDex.ScriptCodec
import CkbDex.Candles
import CkbDex.OrderForm
import CkbDex.OccupiedCapacity
import CkbDex.Priority
import CkbDex.UpsertRaces
import CkbDex.Convergence
import CkbDex.StaleFacts
import CkbDex.Holdings
import CkbDex.Reservations
import CkbDex.FillOrder
import CkbDex.PaidTrades
import CkbDex.Reconciliation
import CkbDex.RealtimeListeners
import CkbDex.OrderNotices
