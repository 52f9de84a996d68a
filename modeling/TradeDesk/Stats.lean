import TradeDesk.Numeric

/-!
# Sums, means and spreads

Two summation orders are in use, and in binary64 they can differ in the last bits:

* `Numeric.sumLeft` (in `TradeDesk.Numeric`) adds from the left, starting at the whole number zero.
* `Stats.sumPairwise` adds in blocks: fewer than 8 values from the left starting at `0.0`; up to
  128 values in eight interleaved running sums (values `i ≡ j mod 8` into the `j`-th), combined as
  `((r0 + r1) + (r2 + r3)) + ((r4 + r5) + (r6 + r7))`, then the values left over from the left;
  more than 128 values split at half the count rounded down to a multiple of 8, each half summed
  the same way. The total is then added to `0.0`.

Means and weighted means use the pairwise order. In exact arithmetic both orders give the plain
sum.
-/

namespace TradeDesk.Stats

open Numeric

variable {α : Type} [Numeric α]

/-- The values `a[lo], …, a[lo + n - 1]` added from the left to `init`. -/
def sumFrom (a : Array α) (init : α) (lo : Nat) : Nat → α
  | 0 => init
  | n + 1 => sumFrom a (init + a.getD lo zero) (lo + 1) n

/-- Eight interleaved running sums over `blocks` blocks of eight values starting at `lo`, seeded
with the first block. -/
def lanes (a : Array α) (lo blocks : Nat) : List α :=
  (List.range 8).map fun j =>
    (List.range blocks).foldl (fun acc b => if b == 0 then acc else acc + a.getD (lo + 8 * b + j) zero)
      (a.getD (lo + j) zero)

/-- The eight running sums combined in pairs. -/
def combine : List α → α
  | [r0, r1, r2, r3, r4, r5, r6, r7] => ((r0 + r1) + (r2 + r3)) + ((r4 + r5) + (r6 + r7))
  | rs => sumLeft rs

/-- The blocked sum of `n` values starting at `lo` (see the module note). -/
def blocked (a : Array α) (lo n : Nat) : α :=
  if n < 8 then sumFrom a (0.0 : α) lo n
  else if n ≤ 128 then
    let whole := n - n % 8
    sumFrom a (combine (lanes a lo (whole / 8))) (lo + whole) (n % 8)
  else
    let half := n / 2 - (n / 2) % 8
    blocked a lo half + blocked a (lo + half) (n - half)
termination_by n
decreasing_by all_goals omega

/-- The sum of a list in the blocked pairwise order, added to `0.0`. -/
def sumPairwise (xs : List α) : α := (0.0 : α) + blocked xs.toArray 0 xs.length

/-- The mean of a list: the pairwise sum over the count. -/
def mean (xs : List α) : α := sumPairwise xs / (xs.length : α)

/-- Whether a value is zero: neither below nor above it, and comparable (a NaN is not zero). -/
def isZero (x : α) : Bool := decide (x ≤ (0.0 : α)) && decide ((0.0 : α) ≤ x)

/-- The weighted mean `Σ aᵢwᵢ / Σ wᵢ`, both sums pairwise; `none` when the weights add up to zero. -/
def weightedMean (pairs : List (α × α)) : Option α :=
  let total := sumPairwise (pairs.map (·.2))
  if isZero total then none else some (sumPairwise (pairs.map fun (a, w) => a * w) / total)

end TradeDesk.Stats
