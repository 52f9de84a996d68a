import TradeDesk.Num
import TradeDesk.Stats
import TradeDesk.Value
import TradeDesk.Value.Array

/-!
# The window of recent trades

A `Window` keeps the last `capacity` trades, oldest first. A push appends a trade; once the window
is full, the push also drops the oldest trade and hands it back (`Window.push`). The rates and means
of the window are computed from its trades.

A `Trade` records whether a trade was won, its profit and loss, and its return relative to the
bankroll before it. A `Record` is a trade as a caller hands it over, each field stored as given;
`Window.report?` summarises a window of records with the arithmetic of `Value.Arith` and the array
statistics of `Value.Array`, so that fields of the wrong type fail the summary as they would fail
the arithmetic.
-/

namespace TradeDesk

/-- One realized trade. -/
structure Trade (α : Type) where
  won : Bool
  pnl : α
  ret : α

/-- The most recent trades, oldest first, at most `capacity` of them. -/
structure Window (β : Type) where
  capacity : Nat
  items : List β

namespace Window

variable {β : Type}

/-- An empty window of the given capacity. -/
def empty (capacity : Nat) : Window β := ⟨capacity, []⟩

/-- Why a window could not be made. -/
inductive Error where
  | nonPositiveCapacity
  | fault (f : Fault)

/-- The wording of a window error. -/
def Error.message : Error → String
  | .nonPositiveCapacity => "capacity must be > 0"
  | .fault f => f.message

/-- An empty window of a requested capacity, which must be positive. -/
def create (capacity : Int) : Except Error (Window β) :=
  if capacity ≤ 0 then .error .nonPositiveCapacity else .ok (empty capacity.toNat)

/-- An empty window whose capacity is given as any value: it must compare with zero and be above it,
and be a whole number (or truth value) whose slots fit in memory. -/
def open? (capacity : Value) : Except Error (Window β) := do
  if ← (Value.le? capacity (.int 0)).mapError .fault then throw .nonPositiveCapacity
  let n : Int ← match capacity with
    | .num (.int n) => pure n
    | .bool b => pure (if b then 1 else 0)
    | v => throw (.fault (.repeatByNonInt v.typeName))
  if !Value.fitsWord n then throw (.fault .indexTooLarge)
  if 8 * n.toNat > Value.memoryBudget then throw (.fault .outOfMemory)
  pure (empty n.toNat)

/-- How many trades the window holds. -/
def size (w : Window β) : Nat := w.items.length

/-- Adds a trade as the newest. When the window was full, its oldest trade is dropped and
returned. -/
def push (w : Window β) (x : β) : Window β × Option β :=
  if w.items.length < w.capacity then ({ w with items := w.items ++ [x] }, none)
  else ({ w with items := (w.items ++ [x]).drop 1 }, w.items.head?)

/-- The window emptied, with its capacity kept. -/
def clear (w : Window β) : Window β := empty w.capacity

/-- Whether the window holds `capacity` trades. -/
def isFull (w : Window β) : Bool := w.size == w.capacity

open Numeric

variable {α : Type} [Numeric α]

/-- The share of won trades; zero for an empty window. -/
def winRate (w : Window (Trade α)) : α :=
  if w.size == 0 then 0.0
  else ((w.items.filter (·.won)).length : α) / (w.size : α)

/-- The mean profit and loss, summed from the left; zero for an empty window. -/
def meanPnl (w : Window (Trade α)) : α :=
  if w.size == 0 then 0.0 else sumLeft (w.items.map (·.pnl)) / (w.size : α)

/-- The population standard deviation of the returns, in binary64 with pairwise sums; zero with
fewer than two trades. -/
def volatility (w : Window (Trade Num)) : Float :=
  if w.size < 2 then 0.0 else Value.floatDeviation (w.items.map (·.ret.toFloat))

end Window

/-- A trade as a caller hands it over: each field as given. -/
structure Record where
  won : Value
  pnl : Value
  ret : Value

/-- A record as a document: `won`, `pnl`, `return_pct`. -/
def Record.toValue (r : Record) : Value :=
  .obj [("won", r.won), ("pnl", r.pnl), ("return_pct", r.ret)]

/-- A window of records as a document: its records, size, fullness, capacity (`shown` as the
caller gave it), the share of records whose `won` is truthy, the mean profit and loss, and the
volatility of the returns (zero with fewer than two records). The mean and the volatility fail as
their arithmetic would, the mean first. -/
def Window.report? (shown : Value) (w : Window Record) : Except Fault Value := do
  let n := w.size
  let winRate : Num :=
    if n == 0 then .float 0.0 else Num.div (.int (w.items.filter (·.won.truthy)).length) (.int n)
  let meanPnl ← if n == 0 then pure (.float 0.0)
    else Value.div? (← Value.sum? (w.items.map (·.pnl))) (.int n)
  let volatility ← if n < 2 then pure 0.0 else Value.deviation? (w.items.map (·.ret))
  pure (.obj [("items", .list (w.items.map Record.toValue)), ("len", .int n),
    ("is_full", .bool w.isFull), ("capacity", shown), ("win_rate", .num winRate),
    ("avg_pnl", meanPnl), ("volatility", .float volatility)])

/-- A trade as a document: `won`, `pnl`, `return_pct`. -/
def Trade.toValue (t : Trade Num) : Value :=
  .obj [("won", .bool t.won), ("pnl", .num t.pnl), ("return_pct", .num t.ret)]

/-- The window as a document: its trades, size, fullness, capacity, win rate, mean profit and loss
and volatility. -/
def Window.toValue (w : Window (Trade Num)) : Value :=
  .obj [("items", .list (w.items.map Trade.toValue)), ("len", .int w.size),
    ("is_full", .bool w.isFull), ("capacity", .int w.capacity), ("win_rate", .num w.winRate),
    ("avg_pnl", .num w.meanPnl), ("volatility", .float w.volatility)]

end TradeDesk
