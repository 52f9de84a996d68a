import TradeDesk.Routing.Collect
import TradeDesk.Decimal.Text
import TradeDesk.Value.Text
import TradeDesk.Sort

/-!
# A market data feed held in memory

A `Feed` holds, per market and venue, an installed quote or a reason the venue is unavailable, and
per venue a delay in seconds. A market's venues are those with a quote or an unavailability for it,
sorted by name, followed by further names listed for the market (which need not name venues).
Two more kinds of entries describe misbehaving venues: a verbatim answer (`raw`), which may or may
not be a quote, and a failure with a message.

`Feed.fetch` says what asking a venue for a market's quote comes to, under the time limits of a
`Timing`: a failure comes after the venue's delay; a verbatim answer comes at once and is read as a
quote when it is a mapping whose `price` and `available_depth` convert to numbers; otherwise, after
the delay, the venue is unavailable, or gives its quote, or does not list the market. A delay that
reaches the per-quote limit or the overall deadline drops the venue at whichever comes first.

A market that is a list or an object cannot be a key: setting an entry for it fails, so does
listing its venues, and asking a venue for its quote drops the venue with that error.

Markets are matched as lookup keys (`Value.sameKey`).
-/

namespace TradeDesk

/-- The time limits of a collection, in seconds: per quote and for the whole collection. -/
structure Timing where
  quote : Float
  route : Float

namespace Timing

/-- Milliseconds as seconds in binary64; a number of milliseconds beyond binary64 is a fault. -/
def seconds (ms : Nat) : Except Fault Float := do
  pure ((← (Num.int ms).toFloat?) / 1000.0)

/-- The limits of a routing call, from milliseconds: the per-quote limit is converted first. -/
def ofMillis (quoteMs routeMs : Nat) : Except Fault Timing := do
  let q ← seconds quoteMs
  let r ← seconds routeMs
  pure ⟨q, r⟩

/-- The limits of a price comparison: the per-quote limit, and twice that overall. -/
def comparison (quoteMs : Nat) : Except Fault Timing := do
  let q ← seconds quoteMs
  pure ⟨q, q * 2.0⟩

/-- Why a venue that answers after `delay` seconds is dropped, if it is. -/
def late (t : Timing) (delay : Float) : Option String :=
  if !(0.0 < delay) then none
  else if delay < t.quote && delay < t.route then none
  else if t.quote < t.route then some ("quote timeout after " ++ Decimal.fixed 0 (t.quote * 1000.0) ++ "ms")
  else some ("route deadline (" ++ Decimal.fixed 0 (t.route * 1000.0) ++ "ms) reached")

end Timing

/-- Entries keyed by market and venue. -/
abbrev Keyed (β : Type) := List ((Value × Venue) × β)

namespace Keyed

variable {β : Type}

/-- Whether a key is the market and venue. -/
def hits (market : Value) (v : Venue) (k : Value × Venue) : Bool := Value.sameKey k.1 market && k.2 == v

/-- The entry of a market and venue. -/
def find? (xs : Keyed β) (market : Value) (v : Venue) : Option β :=
  (List.find? (fun e => hits market v e.1) xs).map (·.2)

/-- The entry of a market and venue set: in place if present, else at the end. -/
def put (xs : Keyed β) (market : Value) (v : Venue) (b : β) : Keyed β :=
  if xs.any fun e => hits market v e.1 then xs.map fun e => if hits market v e.1 then (e.1, b) else e
  else xs ++ [((market, v), b)]

/-- The entry of a market and venue removed. -/
def erase (xs : Keyed β) (market : Value) (v : Venue) : Keyed β :=
  xs.filter fun e => !hits market v e.1

end Keyed

/-- A market data feed held in memory (see the module note). -/
structure Feed where
  quotes : Keyed (Quote Num)
  down : Keyed Value
  delays : List (Venue × Float)
  extra : List (Value × List Value)
  raw : Keyed Value
  failures : Keyed String

namespace Feed

/-- Why a feed entry could not be set: an unknown venue, or a fault (a value that is not a number,
or a market that cannot be a key). -/
inductive Error where
  | unknown (u : Venue.Unknown)
  | fault (f : Fault)

/-- The feed with nothing in it. -/
def empty : Feed := ⟨[], [], [], [], [], []⟩

/-- The venue a value names. -/
def venue (platform : Value) : Except Error Venue := (Venue.resolve platform).mapError .unknown

/-- A value as binary64. -/
def number (x : Value) : Except Error Float := x.toFloat?.mapError .fault

/-- A market checked as a key: lists and objects cannot be keys. -/
def keyed (market : Value) : Except Error Unit :=
  if market.isKey then .ok () else .error (.fault (.unhashable market.typeName))

/-- A quote installed; the venue is no longer unavailable for the market. -/
def setQuote (f : Feed) (market platform price depth : Value) : Except Error Feed := do
  let v ← venue platform
  let p ← number price
  let d ← number depth
  keyed market
  pure { f with quotes := f.quotes.put market v ⟨.float p, .float d⟩, down := f.down.erase market v }

/-- A venue made unavailable for a market, with a reason; a null reason leaves the venue listed but
available. -/
def setUnavailable (f : Feed) (market platform : Value) (reason : Value) : Except Error Feed := do
  let v ← venue platform
  keyed market
  pure { f with down := f.down.put market v reason }

/-- A venue's delay in seconds. -/
def setDelay (f : Feed) (platform seconds : Value) : Except Error Feed := do
  let v ← venue platform
  let s ← number seconds
  pure { f with delays := if f.delays.any (·.1 == v) then f.delays.map fun e => if e.1 == v then (v, s) else e
    else f.delays ++ [(v, s)] }

/-- Further names listed for a market, after the venues it has entries for. -/
def addListed (f : Feed) (market : Value) (names : List Value) : Feed :=
  { f with extra := f.extra ++ [(market, names)] }

/-- A verbatim answer of a venue for a market. -/
def setRaw (f : Feed) (market platform answer : Value) : Except Error Feed := do
  let v ← venue platform
  keyed market
  pure { f with raw := f.raw.put market v answer }

/-- A failure of a venue for a market, with its message. -/
def setFailure (f : Feed) (market platform : Value) (message : String) : Except Error Feed := do
  let v ← venue platform
  keyed market
  pure { f with failures := f.failures.put market v message }

/-- The venues in name order. -/
def byName : List Venue := Sort.stable (fun a b => decide (a.name < b.name)) Venue.all

/-- What the feed lists for a market: the venues with an entry for it in name order, then the
further names. Looking up the further names needs a market that can be a key. -/
def listing (f : Feed) (market : Value) : Except Fault (List Value) :=
  if !market.isKey then .error (.unhashable market.typeName) else
  let keys := (f.quotes.map (·.1) ++ f.down.map (·.1)).filter fun k => Value.sameKey k.1 market
  let venues := byName.filter fun v => keys.any (·.2 == v)
  .ok (venues.map (fun v => .str v.name) ++
    (f.extra.filter fun e => Value.sameKey e.1 market).flatMap (·.2))

/-- A verbatim answer read as a quote: a mapping whose `price` and `available_depth` are present,
not null, and convert to numbers. A whole number too large for binary64 is a fault. -/
def readQuote (answer : Value) : Fetched Num :=
  let empty : Fetched Num := .dropped "empty quote"
  let number (x : Value) (k : Float → Fetched Num) : Fetched Num :=
    match x.toFloat? with
    | .ok y => k y
    | .error .tooLarge => .fault .tooLarge
    | .error _ => empty
  match answer with
  | .obj _ => match answer.get? "price", answer.get? "available_depth" with
    | some .null, _ | _, some .null => empty
    | some p, some d => number p fun x => number d fun y => .quote ⟨.float x, .float y⟩
    | _, _ => empty
  | _ => empty

/-- What asking a venue for a market's quote comes to under the time limits (see the module note). -/
def fetch (f : Feed) (market : Value) (t : Timing) (v : Venue) : Fetched Num :=
  if !market.isKey then .dropped ("error: " ++ (Fault.unhashable market.typeName).message) else
  let delay := ((f.delays.find? (·.1 == v)).map (·.2)).getD 0.0
  match f.failures.find? market v with
  | some message => .dropped ((t.late delay).getD ("error: " ++ message))
  | none => match f.raw.find? market v with
    | some answer => readQuote answer
    | none => match t.late delay with
      | some why => .dropped why
      | none =>
        let listed := match f.quotes.find? market v with
          | some q => .quote q
          | none => .dropped "unavailable: market not listed"
        match f.down.find? market v with
        | some .null | none => listed
        | some reason => .dropped ("unavailable: " ++ reason.plain)

end Feed

end TradeDesk
