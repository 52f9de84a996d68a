import TradeDesk.Value.Text
import TradeDesk.Text.Blank

/-!
# Venues

The closed set of venues an order can be routed to, in their listing order, each with a lower-case
name. `Venue.resolve` reads a venue from any value: its plain text, trimmed and lower-cased, must be
a venue's name; otherwise the error names the value as given and lists the known venues.
-/

namespace TradeDesk

/-- A venue. -/
inductive Venue where
  | polymarket
  | kalshi
  | manifold
  | metaculus
  | predictit
  | drift
  | betfair
  | smarkets
  | binance
  | bybit
  | hyperliquid
  deriving Repr, DecidableEq, Inhabited

namespace Venue

/-- All venues, in listing order. -/
def all : List Venue :=
  [.polymarket, .kalshi, .manifold, .metaculus, .predictit, .drift, .betfair, .smarkets, .binance,
    .bybit, .hyperliquid]

/-- The venue's name. -/
def name : Venue → String
  | .polymarket => "polymarket"
  | .kalshi => "kalshi"
  | .manifold => "manifold"
  | .metaculus => "metaculus"
  | .predictit => "predictit"
  | .drift => "drift"
  | .betfair => "betfair"
  | .smarkets => "smarkets"
  | .binance => "binance"
  | .bybit => "bybit"
  | .hyperliquid => "hyperliquid"

/-- The venue with exactly this name. -/
def ofName? (s : String) : Option Venue := all.find? (·.name == s)

/-- A value that names no venue, shown as plain text. -/
structure Unknown where
  shown : String

/-- The wording of an unknown venue. -/
def Unknown.message (u : Unknown) : String :=
  "unknown platform '" ++ u.shown ++ "' (known: " ++ ", ".intercalate (all.map name) ++ ")"

/-- The venue a value names: its plain text, trimmed and lower-cased. -/
def resolve (v : Value) : Except Unknown Venue :=
  match ofName? (Text.lower (Text.trim v.plain)) with
  | some p => .ok p
  | none => .error ⟨v.plain⟩

end Venue

end TradeDesk
