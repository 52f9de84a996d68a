import TradeDesk.Sizing.Window
import TradeDesk.Config.Sizing

/-!
# The session ledger

A `Ledger` is what a sizing session knows: the bankroll it started with and holds now, the peak
bankroll and the drawdown from it, the win and loss streaks, the count of trades, the window of
recent trades and its win rate, and win counts per category.

Three steps change it. `Ledger.setBankroll` replaces the bankroll; `Ledger.record` books a trade
(its return against the bankroll before it, the new bankroll, the window, the category counts, the
streaks); `Ledger.reset` goes back to the start. After each change of bankroll `Ledger.refresh`
raises the peak to the bankroll if it is above it, and sets the drawdown to
`(peak - bankroll) / peak` held to `[0, 1]`.

Categories are matched as lookup keys: a text by its characters, numbers and truth values by
value (`1`, `1.0` and `true` are one category), and lists and objects cannot be keys at all. Such
a category fails the trade after its bankroll, peak and window are booked.
-/

namespace TradeDesk

/-- Wins out of trades in one category. -/
structure Tally where
  wins : Nat
  total : Nat

/-- The state of a sizing session. -/
structure Ledger (α : Type) where
  initial : α
  bankroll : α
  peak : α
  drawdown : α
  winRate : α
  winStreak : Nat
  lossStreak : Nat
  total : Nat
  window : Window (Trade α)
  categories : List (Value × Tally)

namespace Ledger

open Numeric

variable {α : Type} [Numeric α]

/-- A fresh session: the bankroll and the peak at `initial`, no drawdown, no trades, an empty
window of `lookback` slots. -/
def start (initial : α) (lookback : Nat) : Ledger α :=
  ⟨initial, initial, initial, 0.0, 0.0, 0, 0, 0, Window.empty lookback, []⟩

/-- Back to the start, keeping the initial bankroll and the window's capacity. -/
def reset (l : Ledger α) : Ledger α := start l.initial l.window.capacity

/-- The peak raised to the bankroll if it is above it, and the drawdown from the peak, held to
`[0, 1]`. -/
def refresh (l : Ledger α) : Ledger α :=
  let peak := if l.peak < l.bankroll then l.bankroll else l.peak
  { l with peak := peak, drawdown := clamp 0.0 1.0 ((peak - l.bankroll) / peak) }

/-- The bankroll replaced, then peak and drawdown refreshed. -/
def setBankroll (l : Ledger α) (b : α) : Ledger α := { l with bankroll := b }.refresh

/-- The tally of a category, if it has one. -/
def tally? (l : Ledger α) (category : Value) : Option Tally :=
  (l.categories.find? fun (k, _) => k.sameKey category).map (·.2)

/-- One more trade in a category: its tally updated in place, or a new one at the end. -/
def countCategory (l : Ledger α) (category : Value) (won : Bool) : Ledger α :=
  let w := if won then 1 else 0
  if l.categories.any (fun (k, _) => k.sameKey category) then
    { l with categories := l.categories.map fun (k, t) =>
        if k.sameKey category then (k, ⟨t.wins + w, t.total + 1⟩) else (k, t) }
  else { l with categories := l.categories ++ [(category, ⟨w, 1⟩)] }

/-- Books the bankroll side of a trade: its return against the bankroll before it (zero unless
that bankroll is positive), the new bankroll, peak and drawdown, and the trade in the window. -/
def bookTrade (l : Ledger α) (won : Bool) (pnl : α) : Ledger α :=
  let ret := if zero < l.bankroll then pnl / l.bankroll else 0.0
  let l := { l with bankroll := l.bankroll + pnl }.refresh
  { l with window := (l.window.push ⟨won, pnl, ret⟩).1 }

/-- The streaks, win rate and count after a trade. -/
def countTrade (l : Ledger α) (won : Bool) : Ledger α :=
  { l with
    winStreak := if won then l.winStreak + 1 else 0
    lossStreak := if won then 0 else l.lossStreak + 1
    winRate := l.window.winRate
    total := l.total + 1 }

/-- Records a trade with an optional category (any false value means none). A category that
cannot be a key stops the step after the bankroll side is booked, with the fault returned beside
the ledger. -/
def record (l : Ledger α) (won : Bool) (pnl : α) (category : Value) : Ledger α × Option Fault :=
  let l := l.bookTrade won pnl
  if category.truthy then
    if category.isKey then ((l.countCategory category won).countTrade won, none)
    else (l, some (.unhashable category.typeName))
  else (l.countTrade won, none)

/-- The win probability of a category: its win rate once it has three trades, else `0.6`. -/
def categoryProbability (l : Ledger α) (category : Value) : Except Fault α :=
  if !category.isKey then .error (.unhashable category.typeName)
  else match l.tally? category with
    | some t => if t.total < 3 then .ok 0.6 else .ok ((t.wins : α) / (t.total : α))
    | none => .ok 0.6

end Ledger

end TradeDesk
