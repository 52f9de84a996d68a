import TradeDesk.Venue.Basic
import TradeDesk.Numeric
import TradeDesk.Num

/-!
# Fees and latencies of venues

Each venue has a `Profile`: a taker and a maker fee in basis points of traded notional (a negative
maker fee is a rebate) and a typical order round trip in milliseconds. `VenueTable.standard` holds
the published defaults; `VenueTable.override` patches them from a document of overrides, each
venue's entry applied in order on top of the previous profile, a missing or null field keeping the
previous value.
-/

namespace TradeDesk

/-- Fees and latency of a venue. -/
structure Profile (α : Type) where
  takerBps : α
  makerBps : α
  latencyMs : α

/-- The fee rate that applies to a resting (maker) or crossing (taker) order. -/
def Profile.feeBps {α : Type} (p : Profile α) (isMaker : Bool) : α :=
  if isMaker then p.makerBps else p.takerBps

/-- A profile for every venue. -/
structure VenueTable (α : Type) where
  profile : Venue → Profile α

namespace VenueTable

variable {α : Type} [Numeric α]

/-- The published defaults: fees in basis points and round trips in milliseconds. -/
def defaultProfile : Venue → Profile α
  | .polymarket => ⟨0.0, 0.0, 500.0⟩
  | .kalshi => ⟨120.0, 17.0, 800.0⟩
  | .manifold => ⟨0.0, 0.0, 300.0⟩
  | .metaculus => ⟨0.0, 0.0, 300.0⟩
  | .predictit => ⟨500.0, 500.0, 2000.0⟩
  | .drift => ⟨100.0, -25.0, 400.0⟩
  | .betfair => ⟨200.0, 0.0, 600.0⟩
  | .smarkets => ⟨200.0, 0.0, 700.0⟩
  | .binance => ⟨10.0, 2.0, 150.0⟩
  | .bybit => ⟨10.0, 2.0, 200.0⟩
  | .hyperliquid => ⟨4.5, 1.5, 250.0⟩

/-- The table of defaults. -/
def standard : VenueTable α := ⟨defaultProfile⟩

/-- The table with one venue's profile replaced. -/
def set (t : VenueTable α) (v : Venue) (p : Profile α) : VenueTable α :=
  ⟨fun w => if w = v then p else t.profile w⟩

end VenueTable

/-- Why overrides could not be applied. -/
inductive OverrideError where
  | unknown (u : Venue.Unknown)
  | fault (f : Fault)

/-- The wording of an override error. -/
def OverrideError.message : OverrideError → String
  | .unknown u => u.message
  | .fault f => f.message

namespace VenueTable

/-- A field of an override entry, or the previous value when it is missing or null. Only an object
entry has fields. -/
def pick (entry : Value) (field : String) (previous : Value) : Value :=
  match entry with
  | .obj _ => match entry.get? field with
    | some .null | none => previous
    | some v => v
  | _ => previous

/-- One override entry applied on top of a venue's profile; each field converted to binary64. -/
def overrideOne (t : VenueTable Num) (key : String) (entry : Value) : Except OverrideError (VenueTable Num) := do
  let v ← (Venue.resolve (.str key)).mapError .unknown
  let base := t.profile v
  let taker := pick entry "taker_bps" (.num base.takerBps)
  let maker := pick entry "maker_bps" (.num base.makerBps)
  let latency := pick entry "latency_ms" (.num base.latencyMs)
  let taker ← taker.toFloat?.mapError .fault
  let maker ← maker.toFloat?.mapError .fault
  let latency ← latency.toFloat?.mapError .fault
  pure (t.set v ⟨.float taker, .float maker, .float latency⟩)

/-- The overrides of a document applied in order; null means none. -/
def override (t : VenueTable Num) (overrides : Value) : Except OverrideError (VenueTable Num) :=
  match overrides with
  | .obj fs => fs.foldlM (fun t (k, e) => t.overrideOne k e) t
  | .null => .ok t
  | v => if v.truthy then .error (.fault (.noAttribute v.typeName "items")) else .ok t

/-- The table as a document: every venue's fees and latency, in listing order. -/
def toValue (t : VenueTable Num) : Value :=
  .obj (Venue.all.map fun v =>
    let p := t.profile v
    (v.name, .obj [("taker_bps", .num p.takerBps), ("maker_bps", .num p.makerBps),
      ("latency_ms", .num p.latencyMs)]))

end VenueTable

end TradeDesk
