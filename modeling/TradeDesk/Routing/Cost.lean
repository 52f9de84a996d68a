import TradeDesk.Value.Arith
import TradeDesk.Venue.Table
import TradeDesk.Value.Text

/-!
# The all-in cost of an order on one venue

Slippage follows a linear impact model: taking the whole quoted depth costs `100 * impact`
percent, so an order of `size` against depth `depth` slips `100 * impact * size / depth` percent
(`Cost.slippagePercent`). The largest order that stays within a slippage cap is `depth * cap / (100 *
impact)`, never more than the depth itself (`Cost.capacity`). An order may rest passively (as a
maker) when it is at most a share of the depth (`Cost.canRest`).

`Cost.estimate` prices an order: the quote moved against the order by the slippage (never below
zero for a sale), then the fee rate on top; the maker rate applies only when resting is preferred
and possible, and a negative rate (a rebate) counts as zero. `Candidate.build` records the result
for a venue, with the venue's latency.

The rules are written over any `Numeric` type; `Routing.Offer` applies them to values as callers
hand them over. `Cost.usableOf` is the usability test of a quote given as values.
-/

namespace TradeDesk

/-- The direction of an order. -/
inductive Side where
  | buy
  | sell
  deriving Repr, DecidableEq

/-- The name of a side. -/
def Side.name : Side → String
  | .buy => "buy"
  | .sell => "sell"

/-- The side a text names exactly. -/
def Side.ofName? (s : String) : Option Side :=
  if s == "buy" then some .buy else if s == "sell" then some .sell else none

/-- A venue's top price and the notional resting at it. -/
structure Quote (α : Type) where
  price : α
  depth : α

/-- One venue's priced route for an order. -/
structure Candidate (α : Type) where
  venue : Venue
  net : α
  fees : α
  slippage : α
  isMaker : Bool
  latency : α
  quoted : α
  depth : α
  size : α

/-- The breakdown of an order's cost. -/
structure Cost (α : Type) where
  execPrice : α
  feeBps : α
  fees : α
  slippage : α
  net : α
  isMaker : Bool

namespace Cost

open Numeric

variable {α : Type} [Numeric α]

/-- Slippage in percent of an order of `size` against `depth`. -/
def slippagePercent (size depth impact : α) : α := 100.0 * impact * (size / depth)

/-- The largest order within the slippage cap `maxSlippage`, at most the depth. -/
def capacity (depth maxSlippage impact : α) : α := smaller depth (depth * maxSlippage / (100.0 * impact))

/-- Whether an order is small enough against the depth to rest passively. -/
def canRest (size depth ratio : α) : Bool := decide (size ≤ depth * ratio)

/-- The cost of an order of `size` on a venue with the given profile. -/
def estimate (q : Quote α) (side : Side) (venue : Profile α) (size : α) (preferMaker : Bool)
    (impact ratio : α) : Cost α :=
  let slip := slippagePercent size q.depth impact
  let isMaker := preferMaker && canRest size q.depth ratio
  let feeBps := larger 0.0 (venue.feeBps isMaker)
  let fees := size * feeBps / 10000.0
  match side with
  | .buy =>
    let execPrice := q.price * ((1.0 : α) + slip / 100.0)
    ⟨execPrice, feeBps, fees, slip, execPrice * ((1.0 : α) + feeBps / 10000.0), isMaker⟩
  | .sell =>
    let execPrice := larger 0.0 (q.price * ((1.0 : α) - slip / 100.0))
    ⟨execPrice, feeBps, fees, slip, execPrice * ((1.0 : α) - feeBps / 10000.0), isMaker⟩

end Cost

/-- The candidate of a venue for an order of `size` under the router's preferences. -/
def Candidate.build {α : Type} [Numeric α] (venue : Venue) (q : Quote α) (side : Side)
    (profile : Profile α) (size : α) (preferMaker : Bool) (impact ratio : α) : Candidate α :=
  let c := Cost.estimate q side profile size preferMaker impact ratio
  ⟨venue, c.net, c.fees, c.slippage, c.isMaker, profile.latencyMs, q.price, q.depth, size⟩

/-- The candidate as a document. -/
def Candidate.toValue (c : Candidate Num) : Value :=
  .obj [("platform", .str c.venue.name), ("net_price", .num c.net), ("estimated_fees", .num c.fees),
    ("slippage_percent", .num c.slippage), ("is_maker", .bool c.isMaker),
    ("execution_time_ms", .num c.latency), ("quoted_price", .num c.quoted),
    ("available_depth", .num c.depth), ("size", .num c.size)]

/-- The breakdown as a document. -/
def Cost.toValue (c : Cost Num) : Value :=
  .obj [("exec_price", .num c.execPrice), ("fee_bps", .num c.feeBps), ("fees", .num c.fees),
    ("slippage_percent", .num c.slippage), ("net_price", .num c.net), ("is_maker", .bool c.isMaker)]

namespace Cost

/-- Whether a quote can be traded: a finite positive price and a finite positive depth. A value
that is not a number fails the finiteness test. -/
def usableOf (price depth : Value) : Except Fault Bool := do
  if !(← price.finite?) then return false
  if ← price.le? (.int 0) then return false
  if !(← depth.finite?) then return false
  return !(← depth.le? (.int 0))

end Cost

end TradeDesk
