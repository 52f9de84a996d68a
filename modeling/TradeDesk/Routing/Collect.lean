import TradeDesk.Routing.Cost
import TradeDesk.Fault

/-!
# Collecting quotes

The router asks every target venue for a quote at once. What each venue came to is a `Fetched`
value: a quote, a reason the venue was dropped (unavailable, timed out, failed, or answered with
something that is not a quote), or a fault that stops the whole collection. Timing is part of what
a venue came to, so the collection itself is a pure function of the venues and their outcomes.

`Collection.gather` takes the outcomes in venue order and keeps the quotes and the drop reasons
apart, each in that order; the first fault, in venue order, is the collection's fault.
-/

namespace TradeDesk

/-- What asking one venue for a quote came to. -/
inductive Fetched (α : Type) where
  | quote (q : Quote α)
  | dropped (reason : String)
  | fault (f : Fault)

/-- The quotes and the drop reasons of a collection, each in venue order. -/
structure Collection (α : Type) where
  quotes : List (Venue × Quote α)
  dropped : List (Venue × String)

namespace Collection

variable {α : Type}

/-- The empty collection. -/
def empty : Collection α := ⟨[], []⟩

/-- One venue's outcome added to a collection. -/
def add (c : Collection α) : Venue × Fetched α → Except Fault (Collection α)
  | (v, .quote q) => .ok { c with quotes := c.quotes ++ [(v, q)] }
  | (v, .dropped why) => .ok { c with dropped := c.dropped ++ [(v, why)] }
  | (_, .fault f) => .error f

/-- The outcomes of the venues, in order, gathered into a collection. -/
def gather (outcomes : List (Venue × Fetched α)) : Except Fault (Collection α) :=
  outcomes.foldlM add empty

/-- The quote of a venue, if it gave one. -/
def quoteOf (c : Collection α) (v : Venue) : Option (Quote α) :=
  (c.quotes.find? (·.1 == v)).map (·.2)

end Collection

end TradeDesk
