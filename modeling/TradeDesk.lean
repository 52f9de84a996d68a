import TradeDesk.Binary64
import TradeDesk.Decimal.Shortest
import TradeDesk.Decimal.Fixed
import TradeDesk.Decimal.Text
import TradeDesk.Decimal.Read
import TradeDesk.Text.Unicode
import TradeDesk.Text.Chars
import TradeDesk.Text.Blank
import TradeDesk.Text.Quote
import TradeDesk.Text.Bytes
import TradeDesk.Fault
import TradeDesk.Numeric
import TradeDesk.Num
import TradeDesk.Calendar
import TradeDesk.Value
import TradeDesk.Value.Text
import TradeDesk.Value.Arith
import TradeDesk.Value.Array
import TradeDesk.Value.Json
import TradeDesk.Stats
import TradeDesk.Sizing.Kelly
import TradeDesk.Sizing.Window
import TradeDesk.Sizing.Ring
import TradeDesk.Venue.Basic
import TradeDesk.Venue.Table
import TradeDesk.Config.Schema
import TradeDesk.Config.Sizing
import TradeDesk.Config.Router
import TradeDesk.Config.Settings
import TradeDesk.Config.Env
import TradeDesk.Config.Load
import TradeDesk.Yaml
import TradeDesk.Value.Merge
import TradeDesk.Value.Shared
import TradeDesk.Value.Hash
import TradeDesk.Routing.Cost
import TradeDesk.Sort
import TradeDesk.Routing.Rank
import TradeDesk.Routing.Split
import TradeDesk.Routing.Offer
import TradeDesk.Display
import TradeDesk.Routing.Collect
import TradeDesk.Routing.Router
import TradeDesk.Routing.Telemetry
import TradeDesk.Venue.Feed
import TradeDesk.Routing.Desk
import TradeDesk.Sizing.Ledger
import TradeDesk.Sizing.Sizer
import TradeDesk.Decision
import TradeDesk.Proofs.Exact
import TradeDesk.Proofs.Ledger
import TradeDesk.Proofs.Drawdown
import TradeDesk.Proofs.Session
import TradeDesk.Proofs.History
import TradeDesk.Proofs.SortPerm
import TradeDesk.Proofs.Route
import TradeDesk.Proofs.Desk
import TradeDesk.Proofs.Ring
import TradeDesk.Proofs.Outcome
import TradeDesk.Proofs.Partition
import TradeDesk.Proofs.Answers
import TradeDesk.Proofs.Allocation
import TradeDesk.Proofs.Legs
import TradeDesk.Proofs.Loading
import TradeDesk.Proofs.SortSearch
import TradeDesk.Proofs.SortMerge
import TradeDesk.Proofs.SortOrder
import TradeDesk.Proofs.RankOrder
import TradeDesk.Proofs.Pricing
import TradeDesk.Proofs.Dominance
import TradeDesk.Proofs.SizingInputs
import TradeDesk.Proofs.Merge
import TradeDesk.Proofs.Telemetry
import TradeDesk.Proofs.FloatOrder
import TradeDesk.Proofs.FloatRound
import TradeDesk.Proofs.FloatMul
import TradeDesk.Proofs.NearestRound
import TradeDesk.Proofs.Rounded
import TradeDesk.Proofs.FloatAdd
import TradeDesk.Proofs.FloatDiv
import TradeDesk.Proofs.NumOrder
import TradeDesk.Proofs.UnitInterval
import TradeDesk.Proofs.BatchStake
import TradeDesk.Proofs.Overrides
import TradeDesk.Proofs.Update
import TradeDesk.Proofs.RoundedSizing
import TradeDesk.Proofs.RoundedKelly
import TradeDesk.Proofs.Recommendation
import TradeDesk.Proofs.Stake
import TradeDesk.Proofs.Sensitivity
import TradeDesk.Proofs.Decision
