import TradeDesk.Config.Schema
import TradeDesk.Numeric

/-!
# Sizing configuration

The knobs of Kelly sizing: the base multiplier, the band `[minKelly, maxKelly]` the fraction is
held to, how many recent trades count as a full history, the drawdown beyond which stakes are
reduced and by what factor. All fractions are decimals (`0.25` is 25%).

`SizingConfig.validate` checks a document: every fraction in `(0, 1]`, the history length a
positive whole number, and, once all fields pass, `minKelly ≤ maxKelly`.
-/

namespace TradeDesk

/-- The knobs of Kelly sizing. -/
structure SizingConfig (α : Type) where
  baseMultiplier : α
  maxKelly : α
  minKelly : α
  lookback : Nat
  maxDrawdown : α
  drawdownReduction : α

namespace SizingConfig

/-- Quarter Kelly, held to `[1%, 25%]`, over 20 trades, halved beyond a 15% drawdown. -/
def standard {α : Type} [Numeric α] : SizingConfig α :=
  ⟨0.25, 0.25, 0.01, 20, 0.15, 0.5⟩

open Config

/-- A fraction in `(0, 1]`. -/
def fractionField : Value → Except Problem Num := floatField [.gt (.int 0), .le (.int 1)]

/-- The issues of a check, none when it passed. -/
def issuesOf {β : Type} : Except (List Issue) β → List Issue
  | .ok _ => []
  | .error e => e

/-- A sizing configuration from a document; the issues are placed relative to the section. -/
def validate (doc : Value) : Except (List Issue) (SizingConfig Num) :=
  match doc with
  | .obj _ | .map _ =>
    let d : SizingConfig Num := standard
    let b := field doc "base_multiplier" d.baseMultiplier fractionField
    let hi := field doc "max_kelly" d.maxKelly fractionField
    let lo := field doc "min_kelly" d.minKelly fractionField
    let n := field doc "lookback_trades" (d.lookback : Int) (intField [.gt (.int 0)])
    let dd := field doc "max_drawdown" d.maxDrawdown fractionField
    let red := field doc "drawdown_reduction" d.drawdownReduction fractionField
    match b, hi, lo, n, dd, red with
    | .ok b, .ok hi, .ok lo, .ok n, .ok dd, .ok red =>
      if hi.lt lo then .error [⟨[], .kellyBounds lo hi⟩]
      else .ok ⟨b, hi, lo, n.toNat, dd, red⟩
    | _, _, _, _, _, _ =>
      .error (issuesOf b ++ issuesOf hi ++ issuesOf lo ++ issuesOf n ++ issuesOf dd ++ issuesOf red)
  | _ => .error [⟨[], .modelType "SizingConfig"⟩]

/-- The configuration as a document. -/
def toValue (c : SizingConfig Num) : Value :=
  .obj [("base_multiplier", .num c.baseMultiplier), ("max_kelly", .num c.maxKelly),
    ("min_kelly", .num c.minKelly), ("lookback_trades", .int c.lookback),
    ("max_drawdown", .num c.maxDrawdown), ("drawdown_reduction", .num c.drawdownReduction)]

end SizingConfig

end TradeDesk
