import TradeDesk.Routing.Cost
import TradeDesk.Config.Router
import TradeDesk.Stats
import TradeDesk.Sort

/-!
# Ranking candidates

Each mode orders candidates by one primary number, lowest first:

* best price: the net price for a purchase, its negation for a sale;
* best liquidity: the slippage;
* lowest fee: the estimated fees;
* balanced: the sum of four penalties, each a column of the candidates rescaled to `[0, 1]`
  (`normalize`: the smallest value maps to 0 and the largest to 1; a column without spread is all
  zeros): the net price (turned over for a sale, so that the highest price scores 0), the fees, the
  slippage and the latency.

Ties go to the faster venue, then to the one whose maker status matches the preference, then to
the venue name; the sort is stable (`Sort.stable`). The penalty columns are computed on the values
converted to binary64 (`Numeric.approx`), and a NaN anywhere in a column spreads to all of it.

`dominant` names the aspect that made the winner of a balanced ranking win: the one where the mean
penalty of the others most exceeds the winner's. The other modes name their own aspect.
-/

namespace TradeDesk

/-- The aspects a candidate is scored on. -/
inductive Aspect where
  | price
  | fee
  | liquidity
  | speed
  deriving Repr, DecidableEq

/-- The name of an aspect. -/
def Aspect.name : Aspect → String
  | .price => "price"
  | .fee => "fee"
  | .liquidity => "liquidity"
  | .speed => "speed"

/-- All aspects, in the order they are weighed. -/
def Aspect.all : List Aspect := [.price, .fee, .liquidity, .speed]

/-- The penalty columns of a pool of candidates, one value per candidate in each. -/
structure Penalties (α : Type) where
  price : List α
  fee : List α
  liquidity : List α
  speed : List α

namespace Rank

open Numeric

variable {α : Type} [Numeric α]

/-- Whether a value is a NaN: not even equal to itself. -/
def isNaN (x : α) : Bool := !decide (x ≤ x)

/-- The largest value of a column; a NaN in the column makes it NaN. -/
def columnMax (xs : List α) : Option α :=
  match xs.find? isNaN with
  | some n => some n
  | none => maxOf xs

/-- The smallest value of a column; a NaN in the column makes it NaN. -/
def columnMin (xs : List α) : Option α :=
  match xs.find? isNaN with
  | some n => some n
  | none => minOf xs

/-- A column rescaled to `[0, 1]` by its least and greatest values; all zeros when the spread is not
positive. -/
def normalize (xs : List α) : List α :=
  match columnMax xs, columnMin xs with
  | some hi, some lo =>
    let span := hi - lo
    if span ≤ (0.0 : α) then xs.map fun _ => (0.0 : α) else xs.map fun x => (x - lo) / span
  | _, _ => []

/-- The price column: rescaled, then turned over for a sale when its greatest value is positive. -/
def priceColumn (side : Side) (xs : List α) : List α :=
  let col := normalize xs
  match side, columnMax col with
  | .sell, some hi => if (0.0 : α) < hi then col.map fun x => (1.0 : α) - x else col
  | _, _ => col

/-- The penalty columns of a pool (see the module note). -/
def penalties (cs : List (Candidate α)) (side : Side) : Penalties α :=
  ⟨priceColumn side (cs.map fun c => approx c.net), normalize (cs.map fun c => approx c.fees),
    normalize (cs.map fun c => approx c.slippage), normalize (cs.map fun c => approx c.latency)⟩

/-- The column of an aspect. -/
def column (p : Penalties α) : Aspect → List α
  | .price => p.price
  | .fee => p.fee
  | .liquidity => p.liquidity
  | .speed => p.speed

/-- The balanced score of each candidate: the sum of its four penalties. -/
def balancedScores (cs : List (Candidate α)) (side : Side) : List α :=
  let p := penalties cs side
  ((p.price.zip p.fee).zip (p.liquidity.zip p.speed)).map fun ((a, b), (c, d)) => a + b + c + d

/-- The primary number of each candidate under a mode. -/
def primaries (mode : Mode) (side : Side) (cs : List (Candidate α)) : List α :=
  match mode with
  | .bestPrice => cs.map fun c => match side with
    | .buy => c.net
    | .sell => -c.net
  | .bestLiquidity => cs.map (·.slippage)
  | .lowestFee => cs.map (·.fees)
  | .balanced => balancedScores cs side

/-- What a candidate is ordered by: the primary number, the latency, whether its maker status
misses the preference, and the venue name. -/
structure Key (α : Type) where
  primary : α
  latency : α
  mismatch : Nat
  name : String

/-- Whether two numbers are equal: neither is below the other, and they are comparable. -/
def same (a b : α) : Bool := decide (a ≤ b) && decide (b ≤ a)

/-- Keys compared field by field: at the first field where they are not equal, by that field. -/
def Key.lt (a b : Key α) : Bool :=
  if !same a.primary b.primary then decide (a.primary < b.primary)
  else if !same a.latency b.latency then decide (a.latency < b.latency)
  else if a.mismatch != b.mismatch then decide (a.mismatch < b.mismatch)
  else decide (a.name < b.name)

/-- The key of a candidate with its primary number. -/
def keyOf (preferMaker : Bool) (c : Candidate α) (primary : α) : Key α :=
  ⟨primary, c.latency, if c.isMaker == preferMaker then 0 else 1, c.venue.name⟩

/-- The candidates in rank order under a mode. -/
def rank (mode : Mode) (side : Side) (preferMaker : Bool) (cs : List (Candidate α)) :
    List (Candidate α) :=
  let keyed := (primaries mode side cs).zip cs |>.map fun (p, c) => (keyOf preferMaker c p, c)
  (Sort.stable (fun a b => a.1.lt b.1) keyed).map (·.2)

/-- Whether an advantage beats the best one so far; `none` stands for no advantage yet, which
every comparable value beats. -/
def beats (adv : α) : Option α → Bool
  | none => !isNaN adv
  | some best => decide (best < adv)

/-- The aspect that made the first of a ranked list win (see the module note). -/
def dominant (mode : Mode) (side : Side) (ranked : List (Candidate α)) : Aspect :=
  match mode with
  | .bestPrice => .price
  | .lowestFee => .fee
  | .bestLiquidity => .liquidity
  | .balanced =>
    if ranked.length < 2 then .price
    else
      let p := penalties ranked side
      (Aspect.all.foldl (fun (best : Aspect × Option α) a =>
        let col := column p a
        let adv := Stats.mean col.tail - col.headD (0.0 : α)
        if beats adv best.2 then (a, some adv) else best) (.price, none)).1

end Rank

end TradeDesk
