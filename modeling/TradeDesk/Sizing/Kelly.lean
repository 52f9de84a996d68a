import TradeDesk.Value.Arith
import TradeDesk.Value
import TradeDesk.Value.Text
import TradeDesk.Decimal.Text

/-!
# The Kelly stake of a binary bet

For a bet won with probability `p` whose edge is `e`, the net odds are `b = e / (1 - p)` and the
Kelly fraction is `p - (1 - p) / b`, held to `[0, 1]` and scaled by a multiplier (`Kelly.fraction`).
A certain win (`p ≥ 1`) stakes the multiplier itself; no edge or no chance stakes nothing
(`Kelly.stake`). The rule is written over any `Numeric` type; `Kelly.fractionOf` applies it to
loosely typed inputs, treating a non-finite edge or probability as no bet.

Also here: the edge of a contract priced in probability units (`Kelly.edge`), the suggested
multiplier for a confidence level (`Kelly.Confidence`), and the stake of a batch of opportunities
(`Kelly.batchStake`): the mean confidence-weighted edge at quarter Kelly, scaled by a correlation
factor, never more than a quarter of the bankroll, rounded to cents.
-/

namespace TradeDesk.Kelly

open Numeric

variable {α : Type} [Numeric α]

/-- How much of the multiplier a bet stakes. -/
inductive Stake (α : Type) where
  /-- A certain win: the multiplier itself. -/
  | whole
  /-- No edge or no chance: nothing. -/
  | nothing
  /-- The Kelly fraction, held to `[0, 1]`, of the multiplier. -/
  | part (f : α)

/-- The stake rule for edge `edge` and win probability `p`. -/
def stake (edge p : α) : Stake α :=
  if (1.0 : α) ≤ p then .whole
  else if edge ≤ zero || p ≤ zero then .nothing
  else
    let b := edge / ((1.0 : α) - p)
    .part (clamp 0.0 1.0 (p - ((1.0 : α) - p) / b))

/-- The Kelly fraction of a bet, scaled by `mult`. -/
def fraction (edge p mult : α) : α :=
  match stake edge p with
  | .whole => mult
  | .nothing => 0.0
  | .part f => f * mult

/-- The edge of a contract priced in probability units: the estimated probability less the price. -/
def edge (price estimate : α) : α := estimate - price

/-- The Kelly fraction of loosely typed inputs: zero unless edge and probability are both finite
numbers (the edge is tested first); a certain win returns the multiplier as given. -/
def fractionOf (edge p mult : Value) : Except Fault Value := do
  if !(← edge.finite?) then return .float 0.0
  if !(← p.finite?) then return .float 0.0
  match edge.asNum?, p.asNum? with
  | some e, some q =>
    match stake e q with
    | .whole => pure mult
    | .nothing => pure (.float 0.0)
    | .part f => Value.mul? (.num f) mult
  | _, _ => pure (.float 0.0)

/-- The edge of loosely typed inputs: their difference. -/
def edgeOf (price estimate : Value) : Except Fault Value := Value.sub? estimate price

/-- Confidence levels, each with a suggested Kelly multiplier. -/
inductive Confidence where
  | veryHigh
  | high
  | medium
  | low
  | veryLow
  deriving Repr, DecidableEq

/-- The name of a level. -/
def Confidence.name : Confidence → String
  | .veryHigh => "very_high"
  | .high => "high"
  | .medium => "medium"
  | .low => "low"
  | .veryLow => "very_low"

/-- The suggested multiplier: half Kelly for very high confidence, quarter Kelly for medium. -/
def Confidence.multiplier : Confidence → α
  | .veryHigh => 0.5
  | .high => 0.35
  | .medium => 0.25
  | .low => 0.15
  | .veryLow => 0.1

/-- All levels. -/
def Confidence.all : List Confidence := [.veryHigh, .high, .medium, .low, .veryLow]

/-- The level of a name, exactly as written. -/
def Confidence.ofName? (s : String) : Option Confidence := Confidence.all.find? (·.name == s)

/-- Why a confidence level could not be looked up. -/
inductive LevelError where
  /-- The value names no level; the value is shown as plain text. -/
  | unknown (shown : String)
  | fault (f : Fault)

/-- The level names in alphabetical order, as the message lists them. -/
def levelNames : String := "['high', 'low', 'medium', 'very_high', 'very_low']"

/-- The wording of a lookup failure. -/
def LevelError.message : LevelError → String
  | .unknown s => "unknown confidence level '" ++ s ++ "' (expected one of " ++ levelNames ++ ")"
  | .fault f => f.message

/-- The suggested multiplier of a loosely typed level: only a text naming a level matches;
lists and objects cannot be looked up at all. -/
def suggestedOf (level : Value) : Except LevelError Value :=
  match level with
  | .str s => match Confidence.ofName? s with
    | some c => .ok (.num c.multiplier)
    | none => .error (.unknown s)
  | .list _ | .obj _ => .error (.fault (.unhashable level.typeName))
  | v => .error (.unknown v.plain)

/-- The confidence-weighted edge of one opportunity, a mapping of any keys: its `edge` (default
`0.0`) times its `confidence` (default `1.0`), both converted to binary64. -/
def weightedEdge (o : Value) : Except Fault Float :=
  match o with
  | .obj _ | .map _ => do
    let e ← ((o.get? "edge").getD (.float 0.0)).toFloat?
    let c ← ((o.get? "confidence").getD (.float 1.0)).toFloat?
    pure (e * c)
  | _ => .error (.noAttribute o.typeName "get")

/-- The binary64 stake of a batch of opportunities (see the module note); zero for an empty batch,
a bankroll at or below zero, or a mean weighted edge that is not finite. -/
def batchStake (bankroll opportunities correlation : Value) : Except Fault Value := do
  let opps ← opportunities.items?
  if opps.isEmpty then return .float 0.0
  if ← bankroll.le? (.int 0) then return .float 0.0
  let weighted ← opps.mapM weightedEdge
  let avg := (weighted.map Num.float |> sumLeft) / (Num.int weighted.length)
  if !avg.isFinite then return .float 0.0
  let scaled ← Value.mul? (.num (avg * 0.25)) correlation
  let f := match scaled.asNum? with
    | some x => clamp (0.0 : Num) 0.25 x
    | none => 0.0
  let stake ← Value.mul? bankroll (.num f)
  match stake.asNum? with
  | some s => pure (.float (Decimal.roundTo 2 s.toFloat))
  | none => pure stake

end TradeDesk.Kelly
