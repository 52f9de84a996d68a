import TradeDesk.Routing.Rank
import TradeDesk.Routing.Split
import TradeDesk.Value.Array

/-!
# Candidates as callers hand them over

The cost rules of `Routing.Cost`, the ranking of `Routing.Rank` and the split of `Routing.Split`
are stated over numbers. Callers may also hand over quotes, sizes and candidates whose fields are
any values. Here the same rules are applied to such values with the operators of `Value.Arith`,
in the order the rules evaluate them, so a field of the wrong type fails at the first operation
that uses it, with that operation's fault; and the fields a caller gave are kept as given.

* `Cost.slippageOf`, `Cost.capacityOf`, `Cost.canRestOf` and `Cost.estimateOf` are the cost rules.
* An `Offer` is a candidate whose fields are values; `Offer.build?` prices one.
* `Offer.rank?` ranks offers: the primary values and the tie-breaking keys are compared as values,
  while the balanced scores come from the fields as binary64 arrays (`Value.floatArray?`), whose
  shapes must add up to one number for each offer (`Value.sumShape?`).
* `Offer.allocate?` and `Offer.split?` allocate an order over ranked offers and price a split.
-/

namespace TradeDesk

/-- A candidate whose fields are values as a caller handed them over. -/
structure Offer where
  venue : Venue
  net : Value
  fees : Value
  slippage : Value
  isMaker : Value
  latency : Value
  quoted : Value
  depth : Value
  size : Value

namespace Offer

/-- The offer as a document. -/
def toValue (o : Offer) : Value :=
  .obj [("platform", .str o.venue.name), ("net_price", o.net), ("estimated_fees", o.fees),
    ("slippage_percent", o.slippage), ("is_maker", o.isMaker), ("execution_time_ms", o.latency),
    ("quoted_price", o.quoted), ("available_depth", o.depth), ("size", o.size)]

/-- An offer from the fields of a document; a missing number is `0.0` and a missing maker flag is
false. -/
def ofFields (venue : Venue) (v : Value) : Offer :=
  let f := fun k => (v.get? k).getD (.float 0.0)
  ⟨venue, f "net_price", f "estimated_fees", f "slippage_percent",
    (v.get? "is_maker").getD (.bool false), f "execution_time_ms", f "quoted_price",
    f "available_depth", f "size"⟩

end Offer

namespace Cost

/-- Slippage of values: `100 * impact`, then `size / depth`, then their product. -/
def slippageOf (size depth impact : Value) : Except Fault Value := do
  let scale ← Value.mul? (.float 100.0) impact
  Value.mul? scale (← Value.div? size depth)

/-- Capacity under the cap of values: `depth * maxSlippage`, then `100 * impact`, their quotient,
and the smaller of the depth and that. -/
def capacityOf (depth maxSlippage impact : Value) : Except Fault Value := do
  let top ← Value.mul? depth maxSlippage
  let bottom ← Value.mul? (.float 100.0) impact
  Value.least? depth (← Value.div? top bottom)

/-- Whether an order of values can rest: `size ≤ depth * ratio`. -/
def canRestOf (size depth ratio : Value) : Except Fault Bool := do
  Value.le? size (← Value.mul? depth ratio)

/-- The cost of an order with values for the quote, the size and the preferences. The maker
status is decided only when resting is preferred. -/
def estimateOf (price depth : Value) (side : Side) (venue : Profile Num) (size preferMaker : Value)
    (impact ratio : Value) : Except Fault (Cost Value) := do
  let slip ← slippageOf size depth impact
  let isMaker ← if preferMaker.truthy then canRestOf size depth ratio else pure false
  let feeBps : Num := Numeric.larger 0.0 (venue.feeBps isMaker)
  let fees ← Value.div? (← Value.mul? size (.num feeBps)) (.float 10000.0)
  let moved ← Value.div? slip (.float 100.0)
  match side with
  | .buy =>
    let execPrice ← Value.mul? price (← Value.add? (.float 1.0) moved)
    let net ← Value.mul? execPrice (.num ((1.0 : Num) + feeBps / 10000.0))
    pure ⟨execPrice, .num feeBps, fees, slip, net, isMaker⟩
  | .sell =>
    let execPrice ← Value.greatest? (.float 0.0) (← Value.mul? price (← Value.sub? (.float 1.0) moved))
    let net ← Value.mul? execPrice (.num ((1.0 : Num) - feeBps / 10000.0))
    pure ⟨execPrice, .num feeBps, fees, slip, net, isMaker⟩

/-- A breakdown of values as a document. -/
def document (c : Cost Value) : Value :=
  .obj [("exec_price", c.execPrice), ("fee_bps", c.feeBps), ("fees", c.fees),
    ("slippage_percent", c.slippage), ("net_price", c.net), ("is_maker", .bool c.isMaker)]

end Cost

namespace Offer

/-- The offer of a venue for a quote and size given as values, priced under the router's
preferences; the quote and the size are kept as given. -/
def build? (venue : Venue) (price depth : Value) (side : Side) (profile : Profile Num) (size : Value)
    (preferMaker : Bool) (impact ratio : Num) : Except Fault Offer := do
  let c ← Cost.estimateOf price depth side profile size (.bool preferMaker) (.num impact) (.num ratio)
  pure ⟨venue, c.net, c.fees, c.slippage, .bool c.isMaker, .num profile.latencyMs, price, depth, size⟩

/-- The offers as candidates over binary64 numbers, for the penalty columns: net prices, fees,
slippages and latencies are converted in that order, column by column, as arrays. A column of lists
is an array of more dimensions; the four penalty columns are then added in order, which fails when
their shapes do not broadcast together, and otherwise gives a sum with no single number for each
offer. -/
def floatCandidates? (os : List Offer) : Except Fault (List (Candidate Float)) := do
  let cols ← [os.map (·.net), os.map (·.fees), os.map (·.slippage), os.map (·.latency)].mapM
    Value.floatArray?
  match cols with
  | [(sn, nets), (sf, fees), (ss, slips), (sl, lats)] =>
    if [sn, sf, ss, sl].any (·.length != 1) then
      let _ ← Value.sumShape? sn [sf, ss, sl]
      throw .notScalar
    pure ((os.zip (nets.zip (fees.zip (slips.zip lats)))).map fun (o, n, f, s, l) =>
    ⟨o.venue, n, f, s, false, l, 0.0, 0.0, 0.0⟩)
  | _ => pure []

/-- The primary value of each offer under a mode. -/
def primaries? (mode : Mode) (side : Side) (os : List Offer) : Except Fault (List Value) :=
  match mode with
  | .bestPrice => os.mapM fun o => match side with
    | .buy => pure o.net
    | .sell => Value.neg? o.net
  | .bestLiquidity => pure (os.map (·.slippage))
  | .lowestFee => pure (os.map (·.fees))
  | .balanced => do
    let cs ← floatCandidates? os
    pure ((Rank.balancedScores cs side).map .float)

/-- The key an offer is ordered by: its primary value, its latency, whether its maker flag is
unequal to the preference, and its venue name. -/
def key (preferMaker : Value) (o : Offer) (primary : Value) : List Value :=
  [primary, o.latency, .int (if Value.eqv o.isMaker preferMaker then 0 else 1), .str o.venue.name]

/-- The offers in rank order under a mode: keys compared as lists of values, by the stable sort. -/
def rank? (mode : Mode) (side : Side) (preferMaker : Value) (os : List Offer) :
    Except Fault (List Offer) := do
  if os.isEmpty then return []
  let keyed := ((← primaries? mode side os).zip os).map fun (p, o) => (key preferMaker o p, o)
  let sorted ← Sort.stableE (fun a b => Value.compareItems .lt a.1 b.1) keyed
  pure (sorted.map (·.2))

/-- The aspect that made the first of ranked offers win; only a balanced ranking of two or more
reads their fields, as binary64 arrays. -/
def dominant? (mode : Mode) (side : Side) (ranked : List Offer) : Except Fault Aspect :=
  match mode with
  | .balanced =>
    if ranked.length < 2 then .ok .price
    else (floatCandidates? ranked).map (Rank.dominant mode side)
  | _ => .ok (Rank.dominant mode side ([] : List (Candidate Float)))

/-- The ranking of offers as a document: the ranked offers, then the balanced scores and the
penalty columns of the offers as given, and the aspect that made the first ranked offer win. -/
def rankReport? (mode : Mode) (side : Side) (preferMaker : Value) (os : List Offer) :
    Except Fault Value := do
  let ranked ← rank? mode side preferMaker os
  let cs ← floatCandidates? os
  let p := Rank.penalties cs side
  let floats := fun (xs : List Float) => Value.list (xs.map .float)
  let comps : Value := if os.isEmpty then .obj [] else
    .obj [("price", floats p.price), ("fee", floats p.fee), ("liquidity", floats p.liquidity),
      ("speed", floats p.speed)]
  let reason ← dominant? mode side ranked
  pure (.obj [("ranked", .list (ranked.map toValue)),
    ("balanced_scores", floats (Rank.balancedScores cs side)), ("components", comps),
    ("dominant_reason", .str reason.name)])

/-- The part of an order `size` counted as nothing: `1e-9 * size`. -/
def negligible (size : Value) : Except Fault Value := Value.mul? (.num Split.tolerance) size

/-- The walk of the allocation over ranked offers, with the rest of the order and the legs so far
(see `Split.allocate`). -/
def walk (cfg : RouterConfig Num) (size : Value) :
    List Offer → Value → List (Venue × Value) → Except Fault (Value × List (Venue × Value))
  | [], remaining, legs => pure (remaining, legs)
  | o :: rest, remaining, legs => do
    if cfg.maxSplit ≤ legs.length then return (remaining, legs)
    if ← Value.le? remaining (← negligible size) then return (remaining, legs)
    let cap ← Cost.capacityOf o.depth (.num cfg.maxSlippage) (.num cfg.impact)
    let take ← Value.least? remaining cap
    if ← Value.le? take (← negligible size) then walk cfg size rest remaining legs
    else walk cfg size rest (← Value.sub? remaining take) (legs ++ [(o.venue, take)])

/-- The venues and sizes an order of value `size` is split into over ranked offers, if they can fill
it; the last leg is the order less the other legs. -/
def allocate? (ranked : List Offer) (size : Value) (cfg : RouterConfig Num) :
    Except Fault (Option (List (Venue × Value))) := do
  let (remaining, legs) ← walk cfg size ranked size []
  if legs.isEmpty then return none
  if ← Value.compare? .gt remaining (← negligible size) then return none
  let head ← Value.sum? (legs.dropLast.map (·.2))
  match legs.getLast? with
  | some (v, _) => pure (some (legs.dropLast ++ [(v, ← Value.sub? size head)]))
  | none => pure none

/-- A split over legs of a venue, a size given as a value and its priced offer, as a document: the
sizes are the weights of the mean net price and slippage (as binary64 arrays), the fees add up, the
route takes as long as its slowest leg, and the total size is the sum of the sizes. `none` when the
weights add up to zero. -/
def split? (legs : List (Venue × Value × Offer)) : Except Fault (Option Value) := do
  let weights ← Value.asFloats? (legs.map (·.2.1))
  let nets ← Value.asFloats? (legs.map (·.2.2.net))
  let slips ← Value.asFloats? (legs.map (·.2.2.slippage))
  let fees ← Value.asFloats? (legs.map (·.2.2.fees))
  let lats ← Value.asFloats? (legs.map (·.2.2.latency))
  let priced : List (Leg Float) := (weights.zip (nets.zip (slips.zip (fees.zip lats)))).zip legs
    |>.map fun ((w, n, s, f, l), (v, _, _)) => ⟨v, w, ⟨v, n, f, s, false, l, 0.0, 0.0, 0.0⟩⟩
  match Split.combine priced with
  | none => pure none
  | some r =>
    let total ← Value.sum? (legs.map (·.2.1))
    pure (some (.obj [("legs", .list (legs.map fun (v, s, o) =>
        .obj [("platform", .str v.name), ("allocated_size", s), ("candidate", o.toValue)])),
      ("net_price", .float r.net), ("estimated_fees", .float r.fees),
      ("slippage_percent", .float r.slippage), ("execution_time_ms", .float r.latency),
      ("total_size", total)]))

end Offer

end TradeDesk
