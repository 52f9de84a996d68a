import TradeDesk.Routing.Cost
import TradeDesk.Config.Router
import TradeDesk.Stats

/-!
# Splitting an order over venues

`Split.allocate` walks the candidates in rank order. Each venue takes the rest of the order or its
capacity under the slippage cap (`Cost.capacity`), whichever is smaller; a venue that would take
nothing (at most a billionth of the order) is passed over, and the walk stops once the order is
filled to within a billionth or the venue limit is reached. The allocation fails when no venue took
anything or more than a billionth is left. Otherwise the last leg is set to the order less the
other legs, so that the legs add up to the order exactly.

`Split.route` prices each leg as its own candidate and combines them: the net price and the
slippage are means weighted by the leg sizes (`Stats.weightedMean`), the fees add up, and the route
takes as long as its slowest leg.
-/

namespace TradeDesk

/-- One venue's part of a split order, priced at its own size. -/
structure Leg (α : Type) where
  venue : Venue
  size : α
  candidate : Candidate α

/-- An order split over several venues. -/
structure Split (α : Type) where
  legs : List (Leg α)
  net : α
  fees : α
  slippage : α
  latency : α

namespace Split

open Numeric

variable {α : Type} [Numeric α]

/-- The tolerance, as a share of the order, below which a part counts as nothing. -/
def tolerance : α := 1e-9

/-- Where the walk over venues stands: what is left of the order and the legs so far, last first. -/
structure Walk (α : Type) where
  remaining : α
  legs : List (Candidate α × α)

/-- Whether the walk is over: the venue limit is reached or the order is filled. -/
def Walk.done (cfg : RouterConfig α) (size : α) (w : Walk α) : Bool :=
  decide (cfg.maxSplit ≤ w.legs.length) || decide (w.remaining ≤ tolerance * size)

/-- One venue's turn in the walk. -/
def Walk.step (cfg : RouterConfig α) (size : α) (w : Walk α) (c : Candidate α) : Walk α :=
  if w.done cfg size then w
  else
    let take := smaller w.remaining (Cost.capacity c.depth cfg.maxSlippage cfg.impact)
    if take ≤ tolerance * size then w else ⟨w.remaining - take, (c, take) :: w.legs⟩

/-- The legs with the last one set to the order less the others. -/
def settle (size : α) (legs : List (Candidate α × α)) : List (Candidate α × α) :=
  match legs.getLast? with
  | none => []
  | some (c, _) =>
    let head := legs.dropLast
    head ++ [(c, size - sumLeft (head.map (·.2)))]

/-- The candidates and sizes an order is split into, if the ranked candidates can fill it. -/
def allocate (ranked : List (Candidate α)) (size : α) (cfg : RouterConfig α) :
    Option (List (Candidate α × α)) :=
  let w := ranked.foldl (Walk.step cfg size) ⟨size, []⟩
  if w.legs.isEmpty || decide (tolerance * size < w.remaining) then none
  else some (settle size w.legs.reverse)

/-- The legs combined into a route; `none` when their sizes add up to zero. The sizes, prices and
slippages are weighed as binary64 values. -/
def combine (legs : List (Leg α)) : Option (Split α) := do
  let weights := legs.map fun l => approx l.size
  let net ← Stats.weightedMean ((legs.map fun l => approx l.candidate.net).zip weights)
  let slip ← Stats.weightedMean ((legs.map fun l => approx l.candidate.slippage).zip weights)
  let latency := (maxOf (legs.map (·.candidate.latency))).getD zero
  pure ⟨legs, net, approx (sumLeft (legs.map (·.candidate.fees))), slip, latency⟩

/-- The route of an allocation, each leg priced at its size by `price`. -/
def route (price : Candidate α → α → Candidate α) (allocation : List (Candidate α × α)) :
    Option (Split α) :=
  combine (allocation.map fun (c, s) => ⟨c.venue, s, price c s⟩)

/-- The whole size of a split order. -/
def totalSize (s : Split α) : α := sumLeft (s.legs.map (·.size))

end Split

/-- A leg as a document. -/
def Leg.toValue (l : Leg Num) : Value :=
  .obj [("platform", .str l.venue.name), ("allocated_size", .num l.size),
    ("candidate", l.candidate.toValue)]

/-- A split order as a document. -/
def Split.toValue (s : Split Num) : Value :=
  .obj [("legs", .list (s.legs.map Leg.toValue)), ("net_price", .num s.net),
    ("estimated_fees", .num s.fees), ("slippage_percent", .num s.slippage),
    ("execution_time_ms", .num s.latency), ("total_size", .num s.totalSize)]

end TradeDesk
