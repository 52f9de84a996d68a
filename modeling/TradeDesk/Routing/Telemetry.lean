import TradeDesk.Routing.Router

/-!
# Routing telemetry

One event per routing call that found a route or was refused: a found route records the validated
order, where it goes (the chosen venue with the whole size, or each leg of a split with its size),
its net price and fees, the savings and the dropped venues; a refusal records the market as the
caller gave it, the kind of refusal, its message and its warnings.
-/

namespace TradeDesk

/-- A record of one routing call. -/
inductive Event (α : Type) where
  | found (market : String) (side : Side) (size : α) (allocation : List (Venue × α)) (net fees savings : α)
      (dropped : List (Venue × String))
  | failed (market : Value) (error message : String) (warnings : List String)

namespace Event

variable {α : Type}

/-- Where a route sends the order: each venue with the size it takes. -/
def allocation (req : Request α) : Route α → List (Venue × α)
  | .single c => [(c.venue, req.size)]
  | .split s => s.legs.map fun l => (l.venue, l.size)

/-- The event of a found route. -/
def ofOutcome (req : Request α) (o : Outcome α) : Event α :=
  .found req.market req.side req.size (allocation req o.best) o.best.net o.best.fees o.savings o.dropped

/-- The event of a refusal, with the market as the caller gave it. -/
def ofRefusal (market : Value) (r : Refusal α) : Event α :=
  .failed market r.kind.name r.message r.warnings

/-- The kind of an event. -/
def kind : Event α → String
  | .found .. => "route_found"
  | .failed .. => "routing_failed"

/-- Venues with texts as a document keyed by venue name. -/
def reasons (xs : List (Venue × String)) : Value := .obj (xs.map fun (v, why) => (v.name, .str why))

/-- The event as a document: its kind, market and decision. -/
def toValue : Event Num → Value
  | .found m side size alloc net fees savings dropped =>
    .obj [("kind", .str "route_found"), ("market_id", .str m),
      ("decision", .obj [("side", .str side.name), ("size", .num size),
        ("allocation", .obj (alloc.map fun (v, s) => (v.name, .num s))), ("net_price", .num net),
        ("estimated_fees", .num fees), ("total_savings", .num savings), ("dropped", reasons dropped)])]
  | .failed m error message warnings =>
    .obj [("kind", .str "routing_failed"), ("market_id", m),
      ("decision", .obj [("error", .str error), ("message", .str message),
        ("warnings", .list (warnings.map .str))])]

end Event

end TradeDesk
