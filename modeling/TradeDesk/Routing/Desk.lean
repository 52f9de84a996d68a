import TradeDesk.Routing.Router
import TradeDesk.Routing.Telemetry
import TradeDesk.Venue.Feed
import TradeDesk.Text.Blank

/-!
# A routing desk

A `Desk` is a router in service: a feed, a configuration, a venue table and, when kept, a
telemetry log. It takes orders as given by a caller (`Order`: any values for the market, the side
and the size) and checks them first (`Desk.validate`): the market must be a non-empty text, the side
`buy` or `sell` once trimmed and lower-cased, and the size a finite positive number once converted
to binary64; a whole number too large for binary64 is a fault rather than an invalid request.

`Desk.findBestRoute` routes an order with the feed's listing and answers (`Router.route`) and logs
the found route or the refusal; a fault is not logged. A refusal records the market only when the
order came as a typed request; an order given as a mapping records an empty market.
`Desk.comparePrices` asks venues for their prices under the comparison time limits, and
`Desk.update` replaces configuration fields, keeping the old configuration when the new one is
invalid; the changes come as keywords, so one named `self`, the desk's own name in the call, is
refused before anything is read.

A desk may be set up with a value that is neither a configuration mapping nor nothing (`Setup`).
Such a value has none of the configuration's fields, and each call fails at the first field it
reads, after the checks that come before it: routing and quoting read the enabled venues once the
order is valid, a comparison reads them when it has to find its venues and then reads the quote
time limit, and an update reads the whole configuration first. The time limits in milliseconds
are converted to binary64 seconds when the venues are asked, so a limit beyond binary64 is a
fault there.
-/

namespace TradeDesk

/-- An order as a caller gives it, and whether it came as a typed request or as a mapping. -/
structure Order where
  market : Value
  side : Value
  size : Value
  typed : Bool

/-- What a desk is set up with: a configuration, or a value given in place of one that has none
of its fields. -/
inductive Setup where
  | config (c : RouterConfig Num)
  | given (v : Value)

namespace Setup

/-- The setup a value asks for: nothing is the standard configuration, a mapping is validated, and
anything else is kept as given. -/
def ofValue (v : Value) : Except RouterConfig.Refusal Setup :=
  match v with
  | .null => .ok (.config RouterConfig.standard)
  | .obj _ | .map _ => (RouterConfig.validate v).map .config
  | _ => .ok (.given v)

/-- The configuration, for a call whose first read is the field `name`. -/
def read (s : Setup) (name : String) : Except Fault (RouterConfig Num) :=
  match s with
  | .config c => .ok c
  | .given v => .error (.noAttribute v.typeName name)

end Setup

/-- A router in service. -/
structure Desk where
  feed : Feed
  setup : Setup
  table : VenueTable Num
  log : Option (List (Event Num))

namespace Desk

/-- An order checked into a request (see the module note). -/
def validate (o : Order) : Except (RouteError Num) (Request Num) := do
  let market ← match o.market with
    | .str m => if m.isEmpty then throw (bad "market_id must be a non-empty string, got " o.market) else pure m
    | _ => throw (bad "market_id must be a non-empty string, got " o.market)
  let side ← match (match o.side with
      | .str s => Side.ofName? (Text.lower (Text.trim s))
      | _ => none) with
    | some s => pure s
    | none => throw (bad "side must be 'buy' or 'sell', got " o.side)
  let size ← match o.size.toFloat? with
    | .ok x => pure x
    | .error .tooLarge => throw (.fault .tooLarge)
    | .error _ => throw (bad "size must be a number, got " o.size)
  if !size.isFinite || size ≤ 0.0 then
    throw (Router.invalid ("size must be > 0, got " ++ Decimal.text size) [])
  pure ⟨market, side, .float size⟩
where
  bad (text : String) (v : Value) : RouteError Num := Router.invalid (text ++ v.repr) []

/-- The time limits of a routing call under a configuration. -/
def timing (c : RouterConfig Num) : Except Fault Timing := Timing.ofMillis c.quoteTimeoutMs c.routeTimeoutMs

/-- The configuration and the feed's listing for a valid order's market; the listing is read
before the configuration. -/
def prepare (d : Desk) (req : Request Num) : Except Fault (RouterConfig Num × List Value) := do
  let listing ← d.feed.listing (.str req.market)
  let cfg ← d.setup.read "enabled_platforms"
  pure (cfg, listing)

/-- An event added to the log, when one is kept. -/
def note (d : Desk) (e : Event Num) : Desk := { d with log := d.log.map (· ++ [e]) }

/-- The route of an order, logged (see the module note). -/
def findBestRoute (d : Desk) (o : Order) : Desk × Except (RouteError Num) (Outcome Num) :=
  let failed := fun (r : Refusal Num) => d.note (Event.ofRefusal (if o.typed then o.market else .str "") r)
  match validate o with
  | .error (.refused r) => (failed r, .error (.refused r))
  | .error e => (d, .error e)
  | .ok req =>
    match d.prepare req with
    | .error f => (d, .error (.fault f))
    | .ok (cfg, listing) =>
      let fetch := (timing cfg).map (d.feed.fetch (.str req.market))
      match Router.route cfg d.table req listing fetch with
      | .ok out => (d.note (Event.ofOutcome req out), .ok out)
      | .error (.refused r) => (failed r, .error (.refused r))
      | .error e => (d, .error e)

/-- The ranked candidates of an order within the cap. -/
def getQuotes (d : Desk) (o : Order) : Except (RouteError Num) (List (Candidate Num)) := do
  let req ← validate o
  let (cfg, listing) ← (d.prepare req).mapError .fault
  Router.quotes cfg d.table req listing ((timing cfg).map (d.feed.fetch (.str req.market)))

/-- The venues with their first positions kept. -/
def distinct (vs : List Venue) : List Venue :=
  vs.foldl (fun acc v => if acc.contains v then acc else acc ++ [v]) []

/-- The quoted price of each venue, none where the venue gave no quote: the given venues, or when
none are given the desk's targets for the market. Each venue is asked once. -/
def comparePrices (d : Desk) (market platforms : Value) : Except Feed.Error (List (Venue × Option Num)) := do
  let targets ← if platforms.truthy then
      (← platforms.items?.mapError Feed.Error.fault).mapM Feed.venue
    else do
      let listing ← (d.feed.listing market).mapError .fault
      let cfg ← (d.setup.read "enabled_platforms").mapError .fault
      pure (Router.targets cfg.enabled listing).1
  let targets := distinct targets
  let cfg ← (d.setup.read "quote_timeout_ms").mapError .fault
  let t ← (Timing.comparison cfg.quoteTimeoutMs).mapError .fault
  let col ← (Collection.gather (targets.map fun p => (p, d.feed.fetch market t p))).mapError .fault
  pure (targets.map fun p => (p, (col.quoteOf p).map (·.price)))

/-- The configuration with some fields replaced, and the desk set up with it; unchanged when the
result is invalid. -/
def update (d : Desk) (changes : List (String × Value)) :
    Except RouterConfig.Refusal (Desk × RouterConfig Num) := do
  -- the changes come as keywords, and the desk itself is bound as `self`
  if changes.any (·.1 == "self") then
    throw (.fault (.repeatedArgument "SmartRouter.update_config" "self"))
  let c ← (d.setup.read "model_dump").mapError .fault
  let c ← c.update changes
  pure ({ d with setup := .config c }, c)

end Desk

/-- A candidate list as a document. -/
def candidatesValue (cs : List (Candidate Num)) : Value := .list (cs.map Candidate.toValue)

/-- A route as a document. -/
def Route.toValue : Route Num → Value
  | .single c => c.toValue
  | .split s => s.toValue

/-- A found route as a document. -/
def Outcome.toValue (o : Outcome Num) : Value :=
  .obj [("is_split", .bool (match o.best with | .split _ => true | .single _ => false)),
    ("best_route", o.best.toValue), ("all_routes", candidatesValue o.routes),
    ("recommendation", .str o.recommendation), ("warnings", .list (o.warnings.map .str)),
    ("dropped_venues", Event.reasons o.dropped), ("total_savings", .num o.savings)]

/-- What a refusal carries besides its kind and message, as document fields. -/
def Refusal.fields (r : Refusal Num) : List (String × Value) :=
  [("warnings", .list (r.warnings.map .str)), ("all_routes", candidatesValue r.routes),
    ("dropped_venues", Event.reasons r.dropped)]

end TradeDesk
