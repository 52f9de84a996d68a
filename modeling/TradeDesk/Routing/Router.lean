import TradeDesk.Routing.Rank
import TradeDesk.Routing.Split
import TradeDesk.Routing.Collect
import TradeDesk.Display

/-!
# Routing an order

`Router.route` finds where to place a validated order (`Request`), given the venues the feed lists
for its market and what asking each venue for a quote came to (`fetch`). It goes in six steps:

1. the targets: the listed names that name venues, each once, in listing order, restricted to the
   enabled venues (`targets`; a name that names no venue is ignored with a warning);
2. the quotes of the targets (`collect`); a dropped venue is reported with its reason;
3. a candidate for each usable quote, one with a finite positive price and depth (`price`); an
   unusable quote drops its venue;
4. the candidates within the slippage cap (`withinCap`); the others are reported as filtered;
5. the ranking of those (`Rank.rank`); the first one is the route;
6. when none is within the cap: a split over the ranked candidates if splitting is allowed
   (`Split.allocate`), else the best candidate above the cap, with a warning.

The outcome reports the route, the candidates within the cap, a recommendation text, the warnings,
the dropped venues and the savings against the worst candidate within the cap. A `Refusal` says why
there is no route: an invalid request (also a market no enabled venue lists), or no liquidity (no
venue answered, no quote was usable, or a split could not fill the order). A `Fault` from the feed
stops routing as it is.

`Router.quotes` is the ranked list of candidates within the cap, as in steps 1 to 5.
-/

namespace TradeDesk

/-- A validated order: the market, the direction and the notional size. -/
structure Request (α : Type) where
  market : String
  side : Side
  size : α

/-- The two ways routing can refuse. -/
inductive RefusalKind where
  | invalidRequest
  | noLiquidity
  deriving Repr, DecidableEq

/-- The name of a refusal kind. -/
def RefusalKind.name : RefusalKind → String
  | .invalidRequest => "InvalidRequest"
  | .noLiquidity => "NoLiquidity"

/-- A refusal to route, with what was found before it: candidates, warnings and dropped venues. -/
structure Refusal (α : Type) where
  kind : RefusalKind
  message : String
  routes : List (Candidate α)
  warnings : List String
  dropped : List (Venue × String)

/-- Why there is no route: a refusal, or a fault that stopped routing. -/
inductive RouteError (α : Type) where
  | refused (r : Refusal α)
  | fault (f : Fault)

/-- A route: one venue, or an order split over several. -/
inductive Route (α : Type) where
  | single (c : Candidate α)
  | split (s : Split α)

/-- The net price of a route. -/
def Route.net {α : Type} : Route α → α
  | .single c => c.net
  | .split s => s.net

/-- The estimated fees of a route. -/
def Route.fees {α : Type} : Route α → α
  | .single c => c.fees
  | .split s => s.fees

/-- A found route, with the candidates within the cap and the account of how it was chosen. -/
structure Outcome (α : Type) where
  best : Route α
  routes : List (Candidate α)
  recommendation : String
  warnings : List String
  dropped : List (Venue × String)
  savings : α

/-- The words for why a route won. -/
def Aspect.reason : Aspect → String
  | .price => "best net price"
  | .fee => "lowest fees"
  | .liquidity => "lowest slippage"
  | .speed => "fastest execution"

namespace Router

open Numeric

variable {α : Type} [Numeric α] [Display α]

/-- An invalid request with the warnings so far. -/
def invalid (message : String) (warnings : List String) : RouteError α :=
  .refused ⟨.invalidRequest, message, [], warnings, []⟩

/-- No liquidity, with what was found so far. -/
def noLiquidity (message : String) (routes : List (Candidate α)) (warnings : List String)
    (dropped : List (Venue × String)) : RouteError α :=
  .refused ⟨.noLiquidity, message, routes, warnings, dropped⟩

/-- The venues a listing names, each once in listing order, restricted to the enabled ones when
some are set; and a warning for each name that names no venue. -/
def targets (enabled : Option (List Venue)) (listing : List Value) : List Venue × List String :=
  let (out, warnings) := listing.foldl (fun (acc : List Venue × List String) raw =>
    match Venue.resolve raw with
    | .ok p => (if acc.1.contains p then acc.1 else acc.1 ++ [p], acc.2)
    | .error _ => (acc.1, acc.2 ++ ["ignoring unsupported venue '" ++ raw.plain ++ "'"])) ([], [])
  (match enabled with
    | some es => out.filter es.contains
    | none => out, warnings)

/-- The quotes of the targets, and the warnings so far: one for each unsupported name, then one for
each dropped venue. An empty target list is an invalid request; after that, asking the venues may
fail at once (`fetch` is a fault). -/
def collect (cfg : RouterConfig α) (req : Request α) (listing : List Value)
    (fetch : Except Fault (Venue → Fetched α)) : Except (RouteError α) (Collection α × List String) := do
  let (platforms, warnings) := targets cfg.enabled listing
  if platforms.isEmpty then
    throw (invalid ("market '" ++ req.market ++ "' is not listed on any enabled venue") warnings)
  let fetch ← fetch.mapError .fault
  let col ← (Collection.gather (platforms.map fun p => (p, fetch p))).mapError .fault
  pure (col, warnings ++ col.dropped.map fun (p, why) => p.name ++ " dropped: " ++ why)

/-- Whether a quote can be traded: a finite positive price and a finite positive depth. -/
def usable (q : Quote α) : Bool :=
  finite q.price && decide (zero < q.price) && finite q.depth && decide (zero < q.depth)

/-- The candidates of the usable quotes, and the venues and warnings of the unusable ones. -/
structure Priced (α : Type) where
  candidates : List (Candidate α)
  dropped : List (Venue × String)
  warnings : List String

/-- The candidate of a venue's quote for the order under the configuration. -/
def candidate (cfg : RouterConfig α) (table : VenueTable α) (req : Request α) (p : Venue)
    (q : Quote α) (size : α) : Candidate α :=
  Candidate.build p q req.side (table.profile p) size cfg.preferMaker cfg.impact cfg.makerDepthRatio

/-- Each quote priced, in order; an unusable quote drops its venue. -/
def price (cfg : RouterConfig α) (table : VenueTable α) (req : Request α)
    (quotes : List (Venue × Quote α)) : Priced α :=
  quotes.foldl (fun acc (p, q) =>
    if usable q then { acc with candidates := acc.candidates ++ [candidate cfg table req p q req.size] }
    else
      { acc with
        dropped := acc.dropped ++ [(p, "no usable liquidity quoted")]
        warnings := acc.warnings ++ [p.name ++ " dropped: no usable liquidity quoted (price=" ++
          Display.text q.price ++ ", depth=" ++ Display.text q.depth ++ ")"] }) ⟨[], [], []⟩

/-- The candidates within the slippage cap, and a warning for each one above it. -/
def withinCap (cfg : RouterConfig α) (cands : List (Candidate α)) : List (Candidate α) × List String :=
  cands.foldl (fun (acc : List (Candidate α) × List String) c =>
    if cfg.maxSlippage < c.slippage then
      (acc.1, acc.2 ++ [c.venue.name ++ " filtered: slippage " ++ Display.fixed 2 c.slippage ++
        "% > max " ++ Display.fixed 2 cfg.maxSlippage ++ "%"])
    else (acc.1 ++ [c], acc.2)) ([], [])

/-- What the route saves against the worst candidate within the cap (the highest net price for a
purchase, the lowest for a sale), over the whole size; nothing when there is no candidate. -/
def savings (best : α) (routes : List (Candidate α)) (req : Request α) : α :=
  let nets := routes.map (·.net)
  match (match req.side with
    | .buy => maxOf nets
    | .sell => minOf nets) with
  | none => 0.0
  | some worst => magnitude (best - worst) * req.size

/-- The recommendation text of a route. -/
def recommend (cfg : RouterConfig α) (best : Route α) (req : Request α) (reason : Aspect)
    (warnings : List String) : String :=
  match best with
  | .split s =>
    let legs := ", ".intercalate (s.legs.map fun l => l.venue.name ++ " " ++ Display.fixed 2 l.size)
    "Split " ++ req.side.name ++ " " ++ Display.fixed 2 req.size ++ " across " ++
      toString s.legs.length ++ " venues (" ++ legs ++
      "): no single venue absorbs the full size within " ++ Display.fixed 2 cfg.maxSlippage ++
      "% slippage (" ++ reason.reason ++ ")"
  | .single c =>
    let text := "Route " ++ req.side.name ++ " " ++ Display.fixed 2 req.size ++ " to " ++
      c.venue.name ++ " (" ++ (if c.isMaker then "maker" else "taker") ++ ") at net " ++
      Display.fixed 4 c.net ++ ": " ++ reason.reason
    let text := if cfg.mode != .balanced then text ++ " (" ++ cfg.mode.name ++ " mode)" else text
    if warnings.any (·.startsWith "target slippage exceeded") then text ++ "; target slippage exceeded"
    else text

/-- The route when no candidate is within the cap: a split if allowed, else the best candidate
above the cap with a warning. -/
def overCap (cfg : RouterConfig α) (table : VenueTable α) (req : Request α)
    (cands : List (Candidate α)) (warnings : List String) (dropped : List (Venue × String)) :
    Except (RouteError α) (Route α × Aspect × List String) :=
  let ranked := Rank.rank cfg.mode req.side cfg.preferMaker cands
  if cfg.allowSplitting then
    match Split.allocate ranked req.size cfg with
    | none =>
      .error (noLiquidity ("combined depth within " ++ Display.fixed 2 cfg.maxSlippage ++
        "% slippage cannot fill " ++ Display.fixed 2 req.size ++ " on '" ++ req.market ++ "'")
        ranked warnings dropped)
    | some allocation =>
      match Split.route (fun c s => candidate cfg table req c.venue ⟨c.quoted, c.depth⟩ s) allocation with
      | some s => .ok (.split s, .liquidity, warnings)
      | none => .error (.fault .weightsSumToZero)
  else
    match ranked with
    | best :: _ =>
      .ok (.single best, Rank.dominant cfg.mode req.side [best], warnings ++
        ["target slippage exceeded: " ++ best.venue.name ++ " needs " ++ Display.fixed 2 best.slippage ++
          "% > max " ++ Display.fixed 2 cfg.maxSlippage ++ "% for a " ++ Display.fixed 2 req.size ++
          " order"])
    | [] => .error (noLiquidity ("no venue quoted usable liquidity for '" ++ req.market ++ "'") []
      warnings dropped)

/-- The route of an order (see the module note). -/
def route (cfg : RouterConfig α) (table : VenueTable α) (req : Request α) (listing : List Value)
    (fetch : Except Fault (Venue → Fetched α)) : Except (RouteError α) (Outcome α) := do
  let (col, warnings) ← collect cfg req listing fetch
  if col.quotes.isEmpty then
    throw (noLiquidity ("no venue responded for '" ++ req.market ++ "'") [] warnings col.dropped)
  let priced := price cfg table req col.quotes
  let dropped := col.dropped ++ priced.dropped
  let warnings := warnings ++ priced.warnings
  if priced.candidates.isEmpty then
    throw (noLiquidity ("no venue quoted usable liquidity for '" ++ req.market ++ "'") [] warnings
      dropped)
  let (surviving, capped) := withinCap cfg priced.candidates
  let warnings := warnings ++ capped
  let ranked := Rank.rank cfg.mode req.side cfg.preferMaker surviving
  let (best, reason, warnings) ← match ranked with
    | best :: _ => pure (Route.single best, Rank.dominant cfg.mode req.side ranked, warnings)
    | [] => overCap cfg table req priced.candidates warnings dropped
  pure ⟨best, ranked, recommend cfg best req reason warnings, warnings, dropped,
    savings best.net ranked req⟩

/-- The ranked candidates within the cap, without choosing a route. -/
def quotes (cfg : RouterConfig α) (table : VenueTable α) (req : Request α) (listing : List Value)
    (fetch : Except Fault (Venue → Fetched α)) : Except (RouteError α) (List (Candidate α)) := do
  let (col, _) ← collect cfg req listing fetch
  let priced := price cfg table req col.quotes
  pure (Rank.rank cfg.mode req.side cfg.preferMaker (withinCap cfg priced.candidates).1)

end Router

end TradeDesk
