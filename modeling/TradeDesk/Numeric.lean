/-!
# The arithmetic of the rules

The sizing and routing rules are written once, over any type with the operations of `Numeric`:
the four operations, negation, comparison, whole and decimal literals and whole powers. The
library runs them on `Num` (whole numbers and binary64 values, the inputs' own numbers); any
ordered field, such as the rationals, is an exact reading of the same definitions.

`Numeric.approx` is the one place where whole numbers and binary64 values are told apart: the
statistics over columns of numbers (ranking scores, spreads) see every value converted to binary64.

The helpers here fix how the rules combine comparisons: `larger a b` keeps `a` unless `b` is
strictly greater, and `smaller a b` keeps `a` unless `b` is strictly less, so of two equal or
incomparable values the first one wins.
-/

namespace TradeDesk

/-- A number type the rules can compute in. Whole literals (`0`, `1`) and decimal literals
(`0.0`, `0.25`) are distinct: in `Num` the first are whole numbers and the second binary64. -/
class Numeric (α : Type) extends Add α, Sub α, Mul α, Div α, Neg α, LT α, LE α, NatCast α,
    OfScientific α, HPow α Nat α where
  /-- The value as an array of binary64 numbers stores it: a whole number is converted, a binary64
  value is kept. In exact arithmetic this is the identity. -/
  approx : α → α
  /-- Whether a value is finite: neither infinite nor NaN. In exact arithmetic every value is. -/
  finite : α → Bool
  decLt : DecidableRel (fun a b : α => a < b)
  decLe : DecidableRel (fun a b : α => a ≤ b)

instance Numeric.decidableLt {α : Type} [Numeric α] : DecidableRel (fun a b : α => a < b) :=
  Numeric.decLt

instance Numeric.decidableLe {α : Type} [Numeric α] : DecidableRel (fun a b : α => a ≤ b) :=
  Numeric.decLe

namespace Numeric

variable {α : Type} [Numeric α]

/-- The whole number zero. -/
def zero : α := ((0 : Nat) : α)

/-- The larger of two values; the first unless the second is strictly greater. -/
def larger (a b : α) : α := if a < b then b else a

/-- The smaller of two values; the first unless the second is strictly less. -/
def smaller (a b : α) : α := if b < a then b else a

/-- `x` held between `lo` and `hi`: the larger of `lo` and the smaller of `hi` and `x`. -/
def clamp (lo hi x : α) : α := larger lo (smaller hi x)

/-- The magnitude of a value: negated when below zero. -/
def magnitude (x : α) : α := if x < zero then -x else x

/-- The sum of a list, added from the left starting at the whole number zero. -/
def sumLeft (xs : List α) : α := xs.foldl (· + ·) zero

/-- The largest element, later elements winning only when strictly greater. -/
def maxOf : List α → Option α
  | [] => none
  | x :: xs => some (xs.foldl larger x)

/-- The smallest element, later elements winning only when strictly less. -/
def minOf : List α → Option α
  | [] => none
  | x :: xs => some (xs.foldl smaller x)

end Numeric

end TradeDesk
