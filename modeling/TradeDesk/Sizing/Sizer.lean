import TradeDesk.Sizing.Ledger
import TradeDesk.Sizing.Kelly
import TradeDesk.Value.Text

/-!
# Sizing a bet from the session

`Ledger.size` starts from the Kelly fraction at the base multiplier and applies, in this order,
the dampers the session calls for:

1. a drawdown guard: beyond the maximum drawdown, times the drawdown reduction;
2. a losing streak: for each loss beyond two in a row, times `0.9`, but never below `0.5`;
3. a thin history: with fewer trades in the window than a full history, times their share.

The result is held to `[minKelly, maxKelly]`; the position is the fraction of a positive bankroll
(zero otherwise). The confidence is the product of the dampers held to `[0, 1]`, scaled down by
the drawdown. Each step that changes something leaves a `Note`.

`Sizer` is a session: a configuration and a ledger. Its operations take loosely typed inputs:
`Sizer.calculate` treats an edge or probability that is not a finite number as zero and clamps a
negative one to zero and a probability of one or more to just below one, each with a note;
`Sizer.recordTrade` and `Sizer.updateBankroll` refuse what they cannot book, without changing the
session.
-/

namespace TradeDesk

/-- Why the stake was damped. -/
inductive Damper where
  | drawdownGuard
  | lossStreak
  | sampleSize
  deriving DecidableEq

/-- The name of a damper. -/
def Damper.name : Damper → String
  | .drawdownGuard => "drawdown guard"
  | .lossStreak => "loss streak"
  | .sampleSize => "sample size"

/-- A damper and the factor it applied. -/
structure Adjustment (α : Type) where
  damper : Damper
  multiplier : α

/-- What sizing changed, and why. -/
inductive Note (α : Type) where
  | edgeNotFinite (given : Value)
  | edgeNegative (edge : α)
  | probabilityNotFinite (given : Value)
  | probabilityNegative (p : α)
  | probabilityCertain (p : α)
  | drawdown (current limit : α)
  | lossStreak (losses : Nat)
  | thinHistory (observed lookback : Nat)
  | cappedAtMax (maxKelly : α)
  | flooredNoEdge (minKelly : α)
  | raisedToFloor (minKelly : α)
  | bankrollExhausted

/-- The recommendation for one bet. -/
structure Sizing (α : Type) where
  kelly : α
  position : α
  confidence : α
  adjustments : List (Adjustment α)
  notes : List (Note α)
  base : α

namespace Ledger

open Numeric

variable {α : Type} [Numeric α]

/-- The dampers that apply to the session, in order, with their factors and notes. -/
def dampers (cfg : SizingConfig α) (l : Ledger α) : List (Adjustment α × Note α) :=
  let guard := if cfg.maxDrawdown < l.drawdown then
      [(⟨.drawdownGuard, cfg.drawdownReduction⟩, .drawdown l.drawdown cfg.maxDrawdown)]
    else []
  let streak := if l.lossStreak > 2 then
      [(⟨.lossStreak, larger 0.5 ((0.9 : α) ^ (l.lossStreak - 2))⟩, .lossStreak l.lossStreak)]
    else []
  let sample := if l.window.size < cfg.lookback then
      [(⟨.sampleSize, (l.window.size : α) / (cfg.lookback : α)⟩, .thinHistory l.window.size cfg.lookback)]
    else []
  guard ++ streak ++ sample

/-- The note on holding a damped fraction to the band, if it was outside it by more than `1e-12`. -/
def bandNote (cfg : SizingConfig α) (base kelly : α) : List (Note α) :=
  if cfg.maxKelly + 1e-12 < kelly then [.cappedAtMax cfg.maxKelly]
  else if kelly < cfg.minKelly - 1e-12 then
    [if base ≤ zero then .flooredNoEdge cfg.minKelly else .raisedToFloor cfg.minKelly]
  else []

/-- A finite edge as sizing takes it: a negative edge counts as none, with a note. -/
def sanitizeEdge (x : α) : α × List (Note α) :=
  if x < 0.0 then (0.0, [.edgeNegative x]) else (x, [])

/-- A finite win probability as sizing takes it: below zero it counts as zero, and from one up as
just below one (`1 - 1e-6`), each with a note. -/
def sanitizeProbability (x : α) : α × List (Note α) :=
  if x < 0.0 then (0.0, [.probabilityNegative x])
  else if 1.0 ≤ x then ((1.0 : α) - 1e-6, [.probabilityCertain x])
  else (x, [])

/-- Sizes a bet of edge `edge` and win probability `p` (already sanitised, with the sanitiser's
notes) against the session. -/
def size (cfg : SizingConfig α) (l : Ledger α) (edge p : α) (notes : List (Note α)) : Sizing α :=
  let base := Kelly.fraction edge p cfg.baseMultiplier
  let ds := l.dampers cfg
  let kelly := ds.foldl (fun k (a, _) => k * a.multiplier) base
  let fraction := larger cfg.minKelly (smaller cfg.maxKelly kelly)
  let exhausted := l.bankroll ≤ zero
  let position := if exhausted then 0.0 else fraction * l.bankroll
  let damped := clamp 0.0 1.0 (ds.foldl (fun c (a, _) => c * a.multiplier) (1.0 : α))
  let confidence := if zero < l.drawdown then damped * ((1.0 : α) - l.drawdown) else damped
  { kelly := fraction, position := position, confidence := confidence,
    adjustments := ds.map (·.1),
    notes := notes ++ ds.map (·.2) ++ bandNote cfg base kelly ++ (if exhausted then [.bankrollExhausted] else []),
    base := base }

/-- The recommendation for a bet whose edge and win probability are finite numbers: both are
sanitised, and their notes come first. This is what `Sizer.calculate` does with finite inputs. -/
def calculate (cfg : SizingConfig α) (l : Ledger α) (edge p : α) : Sizing α :=
  l.size cfg (sanitizeEdge edge).1 (sanitizeProbability p).1
    ((sanitizeEdge edge).2 ++ (sanitizeProbability p).2)

end Ledger

/-- The wording of a note. -/
def Note.message : Note Num → String
  | .edgeNotFinite v => "edge_fraction " ++ v.repr ++ " is not a finite number; treated as 0"
  | .edgeNegative e => "negative edge_fraction " ++ Decimal.fixed 4 e.toFloat ++ " clamped to 0"
  | .probabilityNotFinite v => "win_probability " ++ v.repr ++ " is not a finite number; treated as 0"
  | .probabilityNegative p => "win_probability " ++ Decimal.fixed 4 p.toFloat ++ " below 0 clamped to 0"
  | .probabilityCertain p => "win_probability " ++ Decimal.fixed 4 p.toFloat ++ " clamped below 1"
  | .drawdown d m =>
    "reduced due to drawdown (" ++ Decimal.percent 1 d.toFloat ++ " > " ++ Decimal.percent 1 m.toFloat ++ " limit)"
  | .lossStreak n => "reduced after " ++ toString n ++ " consecutive losses"
  | .thinHistory k n => "insufficient trade history (" ++ toString k ++ "/" ++ toString n ++ " trades)"
  | .cappedAtMax m => "capped at max Kelly (" ++ Decimal.percent 2 m.toFloat ++ ")"
  | .flooredNoEdge m => "no positive Kelly edge; floored at min Kelly (" ++ Decimal.percent 2 m.toFloat ++ ")"
  | .raisedToFloor m => "raised to min Kelly floor (" ++ Decimal.percent 2 m.toFloat ++ ")"
  | .bankrollExhausted => "bankroll exhausted; position size is 0"

/-- The recommendation as a document. -/
def Sizing.toValue (s : Sizing Num) : Value :=
  .obj [("kelly_fraction", .num s.kelly), ("position_size", .num s.position),
    ("confidence", .num s.confidence),
    ("adjustments", .list (s.adjustments.map fun a =>
      .obj [("reason", .str a.damper.name), ("multiplier", .num a.multiplier)])),
    ("warnings", .list (s.notes.map fun n => .str n.message)), ("base_kelly", .num s.base)]

/-- A sizing session: its configuration and its ledger. -/
structure Sizer where
  config : SizingConfig Num
  ledger : Ledger Num

/-- Why a session operation was refused. -/
inductive SizerError where
  | fault (f : Fault)
  | badInitial (given : Value)
  | badOutcome (given : Value)
  | badPnl (given : Value)
  | badBankroll (given : Value)

/-- The wording of a refusal. -/
def SizerError.message : SizerError → String
  | .fault f => f.message
  | .badInitial v => "initial_bankroll must be a positive number, got " ++ v.repr
  | .badOutcome v => "outcome must be 'win' or 'loss', got " ++ v.repr
  | .badPnl v => "pnl must be a finite number, got " ++ v.repr
  | .badBankroll v => "bankroll must be a finite number, got " ++ v.repr

namespace Sizer

/-- The binary64 value of an input if it is a finite number or numeral; `none` if it is not a
number at all or not finite. A whole number beyond the binary64 range is a fault. -/
def finiteValue? (v : Value) : Except Fault (Option Float) :=
  match v.toFloat? with
  | .ok x => .ok (if (Num.float x).isFinite then some x else none)
  | .error .tooLarge => .error .tooLarge
  | .error _ => .ok none

/-- A session over a positive finite initial bankroll. Its window's slots are set aside at once, so
a lookback beyond the 64-bit range, or one whose slots do not fit in memory, fails. -/
def create (config : SizingConfig Num) (initial : Value) : Except SizerError Sizer := do
  match ← (finiteValue? initial).mapError .fault with
  | some x =>
    if x ≤ 0.0 then .error (.badInitial initial)
    else
      if !Value.fitsWord config.lookback then throw (.fault .indexTooLarge)
      if 8 * config.lookback > Value.memoryBudget then throw (.fault .outOfMemory)
      pure ⟨config, Ledger.start (.float x) config.lookback⟩
  | none => .error (.badInitial initial)

/-- Sanitised edge and probability, with notes: a value that is not a finite number counts as
zero, and a finite one is sanitised as `Ledger.sanitizeEdge` and `Ledger.sanitizeProbability` say. -/
def sanitize (edge p : Value) : Except Fault (Num × Num × List (Note Num)) := do
  let (e, en) ← match ← finiteValue? edge with
    | none => pure ((0.0 : Num), [Note.edgeNotFinite edge])
    | some x => pure (Ledger.sanitizeEdge (.float x))
  let (q, pn) ← match ← finiteValue? p with
    | none => pure ((0.0 : Num), [Note.probabilityNotFinite p])
    | some x => pure (Ledger.sanitizeProbability (.float x))
  pure (e, q, en ++ pn)

/-- The recommendation for a bet, from loosely typed edge and probability. -/
def calculate (s : Sizer) (edge p : Value) : Except Fault (Sizing Num) := do
  let (e, q, notes) ← sanitize edge p
  pure (s.ledger.size s.config e q notes)

/-- Whether an outcome is a win: truth values as themselves, otherwise the plain text, trimmed and
lower-cased, must be `win` or `loss`. -/
def parseOutcome (v : Value) : Except SizerError Bool :=
  match v with
  | .bool b => .ok b
  | _ =>
    let w := Text.lower (Text.trim v.plain)
    if w == "win" then .ok true else if w == "loss" then .ok false else .error (.badOutcome v)

/-- Books a trade. A bad outcome or profit and loss changes nothing; a category that cannot be a
key fails after the bankroll side is booked. -/
def recordTrade (s : Sizer) (outcome pnl category : Value) : Sizer × Except SizerError Unit :=
  match parseOutcome outcome with
  | .error e => (s, .error e)
  | .ok won =>
    match finiteValue? pnl with
    | .error f => (s, .error (.fault f))
    | .ok none => (s, .error (.badPnl pnl))
    | .ok (some x) =>
      let (l, fault) := s.ledger.record won (.float x) category
      ({ s with ledger := l }, match fault with
        | some f => .error (.fault f)
        | none => .ok ())

/-- Replaces the bankroll with a finite number. -/
def updateBankroll (s : Sizer) (b : Value) : Except SizerError Sizer :=
  match finiteValue? b with
  | .error f => .error (.fault f)
  | .ok none => .error (.badBankroll b)
  | .ok (some x) => .ok { s with ledger := s.ledger.setBankroll (.float x) }

/-- The Kelly fraction for a category's own win probability (see `Ledger.categoryProbability`). -/
def categoryKelly (s : Sizer) (category edge : Value) : Except Fault Num := do
  let p ← s.ledger.categoryProbability category
  let r ← s.calculate edge (.num p)
  pure r.kelly

/-- The session back at its start. -/
def reset (s : Sizer) : Sizer := { s with ledger := s.ledger.reset }

end Sizer

/-- A category as a document key: a text as itself; other keys as the source-text form of their
answer form, in which a non-finite number is an object with the one key `$float`. -/
def categoryKey : Value → String
  | .str s => s
  | .num (.float x) => match Binary64.classify x with
    | .finite _ => Decimal.text x
    | .inf neg => "\x7b'$float': '" ++ (if neg then "-inf" else "inf") ++ "'\x7d"
    | .nan => "\x7b'$float': 'nan'\x7d"
  | v => v.repr

/-- The session's state as a document. -/
def Ledger.toValue (l : Ledger Num) : Value :=
  .obj [("bankroll", .num l.bankroll), ("peak_bankroll", .num l.peak),
    ("current_drawdown", .num l.drawdown), ("recent_win_rate", .num l.winRate),
    ("win_streak", .int l.winStreak), ("loss_streak", .int l.lossStreak),
    ("trade_window", .list (l.window.items.map Trade.toValue)),
    ("recent_avg_return", .num l.window.meanPnl), ("total_trades", .int l.total),
    ("recent_volatility", .float l.window.volatility),
    ("category_win_rates", .obj (l.categories.map fun (k, t) =>
      (categoryKey k, .obj [("wins", .int t.wins), ("total", .int t.total),
        ("win_rate", .num (if t.total == 0 then 0.0 else (Num.int t.wins) / (Num.int t.total)))])))]

end TradeDesk
